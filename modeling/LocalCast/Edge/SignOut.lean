import LocalCast.Edge.Transitions

/-!
Whether the watch loop respects an explicit sign-out.

* `undoes`: what would undo a sign-out, a request for a new link, a link published, or
  `connected`.
* `acting`, `reopens`: the watch loop on its way to that, and the judgement that sets it on it.
* `Node.harmless_of_step`: a goroutine that is not on its way does nothing of the kind.
* `respectful`: a sign-out lands while the watch loop is not on its way to act on an earlier
  poll, and no answer judged while it stands finds an episode that is not the sign-out's.
* `restrained_step`, `signout_respected`: over such runs, nothing undoes the sign-out.
* `signout_undone`: a poll between the two steps of a `Logout`.
-/

namespace LocalCast.Edge

open JsString Runs

/-- What undoes a sign-out: a request for a new link, a link, or `connected`. -/
def undoes : Act → Bool
  | .nudge => true
  | .publish (.loginRequired url) => url ≠ []
  | .publish (.connected ..) => true
  | _ => false

namespace Node

/-- The watch loop is on its way to undo a sign-out. -/
def acting (n : Node) : Bool :=
  (match n.watch with
    | .linking .. | .restoring _ => true
    | .parking _ | .demoting _ | .nudging _ => n.episode.sawNoURL && !n.episode.nudged
    | _ => false) || n.holds .watch

/-- The watch loop takes an answer for its own to act on: a sign-in is needed in an episode that
it owns, with a link or for the second time without, or the node runs while the status asks for
a sign-in. -/
def reopens (n : Node) (status : EdgeStatus) (st : PollAnswer) : Bool :=
  if st.backend.signedOut then
    (openEpisode n.episode status).owned &&
      (st.authURL ≠ [] || (n.episode.sawNoURL && !n.episode.nudged))
  else st.backend = .running && status.state = .loginRequired

section Step

variable {v : View} {n n' : Node} {act : Act}

/-- Whoever else takes the publisher's lock, the watch loop does not. -/
lemma holds_of_offer {who : Publisher} {url : JsString} {status : EdgeStatus}
    (h : n.offer who url status = some n') (hwho : who ≠ .watch)
    (hn : n.holds .watch = false) : n'.holds .watch = false := by
  rw [offer] at h
  split_ifs at h <;> cases h
  · exact hn
  · exact hn
  · simpa [holds] using hwho

/-- A step that is not the watch loop's leaves it where it was, unless it starts it. -/
lemma acting_congr (hn : n.acting = false) (hw : n'.watch = n.watch ∨ n'.watch = .idle)
    (hep : n'.episode = n.episode) (hholds : n.holds .watch = false → n'.holds .watch = false) :
    n'.acting = false := by
  simp only [acting, Bool.or_eq_false_iff] at hn ⊢
  refine ⟨?_, hholds hn.2⟩
  rcases hw with hw | hw
  · rw [hw, hep]
    exact hn.1
  · rw [hw]

lemma openEpisode_flags (ep : AuthEpisode) (status : EdgeStatus) :
    (openEpisode ep status).sawNoURL = ep.sawNoURL ∧
      (openEpisode ep status).nudged = ep.nudged := by
  rw [openEpisode]
  split_ifs <;> exact ⟨rfl, rfl⟩

/-- An answer that the watch loop does not take for its own sets it on no way to undo a
sign-out. -/
lemma acting_reconcileAuth {status : EdgeStatus} {st : PollAnswer}
    (hn : n.holds .watch = false) (hj : n.reopens status st = false) :
    (n.reconcileAuth status st).acting = false := by
  obtain ⟨hsaw, hnudged⟩ := openEpisode_flags n.episode status
  rw [reopens] at hj
  simp only [reconcileAuth]
  split_ifs at hj ⊢ with hout howned hurl hrun hstate
  · simpa [acting, holds] using hn
  · simp only [Bool.not_eq_true', Bool.not_eq_false] at howned
    simp [howned, hurl] at hj
  · simp only [Bool.not_eq_true', Bool.not_eq_false] at howned
    have hflags : (n.episode.sawNoURL && !n.episode.nudged) = false := by
      simpa [howned, hurl] using hj
    simpa [acting, holds, hsaw, hnudged, hflags] using hn
  · simpa [acting, holds] using hn
  · simp [hrun, not_not.mp hstate] at hj
  · simpa [acting, holds] using hn

/-- A watch loop that is not on its way to undo a sign-out does not undo it. -/
lemma harmless_watchStep {i : Input} (ha : n.acting = false)
    (hj : ∀ st, n.watch = .judging st → i = .go → n.reopens v.status st = false)
    (h : n.watchStep v i = some (n', act)) : n'.acting = false ∧ undoes act = false := by
  have hholds : n.holds .watch = false := (Bool.or_eq_false_iff.mp ha).2
  cases i with
  | go =>
      cases hw : n.watch <;> simp only [watchStep, hw, reduceCtorEq] at h
      case idle =>
          cases h
          exact ⟨by simpa [acting, holds] using hholds, rfl⟩
      case judging st =>
          cases h
          exact ⟨acting_reconcileAuth hholds (hj st hw rfl), rfl⟩
      case linking url peers => simp [acting, hw] at ha
      case parking peers =>
          have hflags : (n.episode.sawNoURL && !n.episode.nudged) = false := by
            simpa [acting, hw, hholds] using ha
          split_ifs at h <;> cases h <;>
            exact ⟨by simpa [acting, holds, hflags] using hholds, rfl⟩
      case demoting peers =>
          have hflags : (n.episode.sawNoURL && !n.episode.nudged) = false := by
            simpa [acting, hw, hholds] using ha
          cases h
          exact ⟨by simpa [acting, holds, hflags] using hholds, rfl⟩
      case nudging peers =>
          split_ifs at h with hsaw hnudged <;> cases h
          · exact ⟨by simpa [acting, holds] using hholds, rfl⟩
          · simp_all [acting]
          · exact ⟨by simpa [acting, holds] using hholds, rfl⟩
      case counting peers =>
          split_ifs at h
          cases h
          exact ⟨by simpa [acting, holds] using hholds, rfl⟩
  | answer st waited =>
      cases hw : n.watch <;> simp only [watchStep, hw, reduceCtorEq] at h
      case asking begun =>
          cases st <;> cases h <;> exact ⟨by simpa [acting, holds] using hholds, rfl⟩
  | ok expires =>
      cases hw : n.watch <;> simp only [watchStep, hw, reduceCtorEq] at h
      case restoring peers => simp [acting, hw] at ha
      case expiring =>
          split_ifs at h <;> cases h <;> exact ⟨by simpa [acting, holds] using hholds, rfl⟩
  | quit =>
      cases hw : n.watch <;> simp only [watchStep, hw, reduceCtorEq] at h
      case idle =>
          split_ifs at h
          cases h
          exact ⟨by simpa [acting, holds] using hholds, rfl⟩
  | fail err => cases h

/-- Bring-up takes the publisher's lock for itself only, and leaves the watch loop where it was
or starts it. -/
lemma acting_bringUpStep {i : Input} (ha : n.acting = false)
    (h : n.bringUpStep v i = some (n', act)) : n'.acting = false := by
  cases i with
  | go =>
      cases hb : n.bringUp <;> simp only [bringUpStep, hb, reduceCtorEq] at h
      case offering l url =>
          obtain ⟨m, hm, h⟩ := Option.map_eq_some_iff.mp h
          obtain ⟨l', rfl⟩ := offer_frame hm
          cases h
          exact acting_congr ha (.inl rfl) rfl fun hholds =>
            holds_of_offer (n := { n with bringUp := .waiting l }) hm (by simp) hholds
      case serving =>
          cases h
          exact acting_congr ha (.inr rfl) rfl id
      all_goals
        first
          | (cases h; exact acting_congr ha (.inl rfl) rfl id)
          | (split_ifs at h <;> cases h <;> exact acting_congr ha (.inl rfl) rfl id)
  | answer st waited =>
      cases hb : n.bringUp <;> simp only [bringUpStep, hb, reduceCtorEq] at h
      case asking l begun =>
          obtain ⟨⟨b, hm, -⟩, -⟩ := bringUpAnswer_spec (n := n) l st waited
          have hn' := congrArg Prod.fst (Option.some.inj h)
          rw [hm] at hn'
          subst hn'
          exact acting_congr ha (.inl rfl) rfl id
  | ok expires =>
      cases hb : n.bringUp <;> simp only [bringUpStep, hb, reduceCtorEq] at h <;> cases h <;>
        exact acting_congr ha (.inl rfl) rfl id
  | fail err =>
      cases hb : n.bringUp <;> simp only [bringUpStep, hb, reduceCtorEq] at h <;> cases h <;>
        exact acting_congr ha (.inl rfl) rfl id
  | quit =>
      cases hb : n.bringUp <;> simp only [bringUpStep, hb, reduceCtorEq] at h
      case waiting l =>
          split_ifs at h
          cases h
          exact acting_congr ha (.inl rfl) rfl id

/-- **A node whose watch loop is not on its way to undo a sign-out does not undo it**, and is
not on its way afterwards. -/
theorem harmless_of_step {ev : Event} (ha : n.acting = false)
    (hj : ∀ st, n.watch = .judging st → ev = .watch .go → n.reopens v.status st = false)
    (h : n.step v ev = some (n', act)) :
    n'.acting = false ∧ (n.publisher ev = some .watch → undoes act = false) := by
  cases ev with
  | bringUp i => exact ⟨acting_bringUpStep ha h, fun hwho => by cases hwho⟩
  | watch i =>
      obtain ⟨ha', hact⟩ := harmless_watchStep ha (fun st hst hi => hj st hst (hi ▸ rfl)) h
      exact ⟨ha', fun _ => hact⟩
  | logLine url =>
      obtain ⟨m, hm, h⟩ := Option.map_eq_some_iff.mp h
      obtain ⟨l, rfl⟩ := offer_frame hm
      cases h
      exact ⟨acting_congr ha (.inl rfl) rfl (holds_of_offer hm (by simp)),
        fun hwho => by cases hwho⟩
  | commit =>
      have hholds : n.holds .watch = false := (Bool.or_eq_false_iff.mp ha).2
      have hwho : n.publisher .commit ≠ some .watch := by simpa [holds, publisher] using hholds
      rcases hl : n.login with _ | ⟨_ | _ | _ | d, url⟩ <;>
        simp only [step, hl, reduceCtorEq] at h <;> cases h <;>
        exact ⟨acting_congr ha (.inl rfl) rfl fun _ => rfl, fun hw => absurd hw hwho⟩

end Step

end Node

namespace Generations

variable {go : GoLibrary} {s t : Generations}

/-! ### The law -/

/-- While a sign-out of the generation in force stands, its watch loop does not undo it. -/
def Respected (e : Entry) : Prop :=
  e.source = .node .watch → e.gen = e.current → e.signedOut = true → undoes e.act = false

/-- The watch loop of a generation is not on its way to undo a sign-out. -/
def dormant (s : Generations) (gen : ℕ) : Bool := (s.nodes gen).all fun n => !n.acting

/-- A sign-out of the generation in force lands while the watch loop is not on its way to act on
an earlier poll, and as long as it stands the watch loop takes no answer for its own to act
on. -/
def respectful (s : Generations) : Action → Bool
  | .call c .go =>
      match s.calls[c]? with
      | some (.parking gen) => gen ≠ s.gen || s.dormant gen
      | _ => true
  | .node gen (.watch .go) =>
      match s.nodes gen with
      | some n =>
          match n.watch with
          | .judging st => s.signedOut ≠ some gen || !n.reopens s.status st
          | _ => true
      | none => true
  | _ => true

/-- The watch loop of a generation that was signed out is on no way to undo it. -/
structure Restrained (s : Generations) : Prop where
  consistent : Consistent s
  dormant : ∀ n, s.signedOut = some s.gen → s.nodes s.gen = some n → n.acting = false
  trace : ∀ e ∈ s.trace, Respected e

/-! ### What a call leaves alone -/

/-- What a step of a call makes of the instances: those there were, as far as the watch loop
goes, and new ones in which it has not begun. -/
def Undisturbed (s t : Generations) : Prop :=
  ∀ g n, t.nodes g = some n → n.acting = false ∨
    ∃ m, s.nodes g = some m ∧ (m.acting = false → n.acting = false)

lemma undisturbed_of_eq (h : t.nodes = s.nodes) : Undisturbed s t :=
  fun _ n hn => .inr ⟨n, h ▸ hn, id⟩

lemma undisturbed_setNode {gen : ℕ} {n : Node} (n' : Node) (hn : s.nodes gen = some n)
    (h : n.acting = false → n'.acting = false) : Undisturbed s (s.setNode gen n') := by
  intro g m hm
  rcases of_setNode hm with ⟨rfl, rfl⟩ | hm
  · exact .inr ⟨n, hn, h⟩
  · exact .inr ⟨m, hm, id⟩

lemma undisturbed_cancel (inst : Option ℕ) : Undisturbed s (s.cancel inst) := by
  intro g n hn
  simp only [cancel] at hn
  split_ifs at hn
  · obtain ⟨m, hm, rfl⟩ := Option.map_eq_some_iff.mp hn
    exact .inr ⟨m, hm, id⟩
  · exact .inr ⟨n, hn, id⟩

lemma Undisturbed.setNode {u : Generations} (h : Undisturbed s t) {gen : ℕ} (n' : Node)
    (hn' : n'.acting = false) (hu : u.nodes = (t.setNode gen n').nodes) : Undisturbed s u := by
  intro g m hm
  rw [hu] at hm
  rcases of_setNode hm with ⟨-, rfl⟩ | hm
  · exact .inl hn'
  · exact h g m hm

/-- What a call adds to the trace is not the watch loop's. -/
def Adds (s t : Generations) : Prop := ∀ e ∈ t.trace, e ∈ s.trace ∨ e.source ≠ .node .watch

lemma adds_of_eq (h : t.trace = s.trace) : Adds s t := fun _ he => .inl (h ▸ he)

lemma adds_cons {e : Entry} (h : t.trace = e :: s.trace) (he : e.source ≠ .node .watch) :
    Adds s t := by
  intro e' he'
  rw [h] at he'
  rcases List.mem_cons.mp he' with rfl | he'
  · exact .inr he
  · exact .inl he'

lemma publish_signedOut (s : Generations) (source : Source) (gen : ℕ) (w : Write) :
    (s.publish source gen w).signedOut = s.signedOut := by
  rw [publish]
  split_ifs <;> rfl

lemma adds_publish (source : Source) {gen : ℕ} {w : Write} (h : source ≠ .node .watch)
    (ht : t.trace = (s.publish source gen w).trace) : Adds s t := by
  rw [publish] at ht
  split_ifs at ht
  · exact adds_cons ht h
  · exact adds_of_eq ht

/-- A step of a call other than the last of a `Logout` leaves the generation in force, or begins
the next one, which has no instance. -/
lemma Restrained.keep (h : Restrained s) (hC : Consistent t) (hgen : t.gen = s.gen)
    (hso : t.signedOut = some s.gen → s.signedOut = some s.gen) (hnodes : Undisturbed s t)
    (htrace : Adds s t) : Restrained t where
  consistent := hC
  dormant n hs hn := by
    rw [hgen] at hs hn
    rcases hnodes _ n hn with ha | ⟨m, hm, ha⟩
    · exact ha
    · exact ha (h.dormant m (hso hs) hm)
  trace e he := (htrace e he).elim (h.trace e) fun hsource hw => absurd hw hsource

/-- The call that retires the generation in force. -/
lemma Restrained.retire (h : Restrained s) (hC : Consistent t) (hgen : t.gen = s.gen + 1)
    (hnodes : t.nodes = s.nodes) (htrace : t.trace = s.trace) : Restrained t where
  consistent := hC
  dormant n _ hn := by
    rw [hgen, hnodes, h.consistent.fresh _ (Nat.lt_succ_self _)] at hn
    cases hn
  trace := htrace ▸ h.trace

section Step

variable {c : ℕ} {p : Call} {i : Input}

lemma restrained_arrive (go : GoLibrary) (h : Restrained s) (k : CallKind) :
    Restrained (s.arrive go k) := by
  have hC := consistent_arrive go h.consistent k
  refine h.keep hC ?_ ?_ (undisturbed_of_eq ?_) (adds_of_eq ?_)
  all_goals
    cases k with
    | apply cfg => cases hv : validate go cfg.applyDefaults <;> simp [arrive, hv]
    | _ => simp [arrive]

lemma restrained_replaceStep (h : Restrained s) (hc : s.calls[c]? = some p)
    (hstep : s.replaceStep c p i = some t) : Restrained t := by
  have hC := consistent_replaceStep h.consistent hc hstep
  cases p <;> cases i <;> try cases hstep
  case reading.go =>
      rw [replaceStep] at hstep
      split_ifs at hstep
      cases hstep
      exact h.keep hC rfl id (undisturbed_of_eq rfl) (adds_of_eq rfl)
  case entering.go cfg =>
      rw [replaceStep] at hstep
      split_ifs at hstep
      cases hstep
      exact h.retire hC rfl rfl rfl
  case announcing.go gen cfg =>
      exact h.keep hC (publish_gen ..) (fun hs => (publish_signedOut ..).symm.trans hs)
        (undisturbed_of_eq (publish_nodes ..)) (adds_publish .replace (by simp) rfl)
  case tearing.go gen cfg =>
      exact h.keep hC rfl id ((undisturbed_cancel s.inst).setNode (.launch cfg) rfl rfl)
        (adds_of_eq rfl)
  case launching.go gen =>
      obtain ⟨n, hn, rfl⟩ := Option.map_eq_some_iff.mp hstep
      exact h.keep hC rfl id (undisturbed_setNode { n with bringUp := .begin } hn id)
        (adds_of_eq rfl)
  case launching.fail gen err => exact h.keep hC rfl id (undisturbed_of_eq rfl) (adds_of_eq rfl)
  case reporting.go gen err =>
      obtain ⟨n, hn, rfl⟩ := Option.map_eq_some_iff.mp hstep
      refine h.keep hC (publish_gen ..) (fun hs => (publish_signedOut
          (s.setNode gen { n with bringUp := .failed }) ..).symm.trans hs) (fun g m hm => ?_)
        (adds_publish .replace (s := s.setNode gen { n with bringUp := .failed }) (by simp) rfl)
      refine undisturbed_setNode { n with bringUp := .failed } hn id g m ?_
      rw [← publish_nodes (s.setNode gen { n with bringUp := .failed }) .replace gen
        (.error err.code err.message)]
      exact hm

lemma restrained_stopStep (h : Restrained s) (hc : s.calls[c]? = some p)
    (hstep : s.stopStep c p i = some t) : Restrained t := by
  have hC := consistent_stopStep h.consistent hc hstep
  cases p <;> cases i <;> try cases hstep
  case stopping.go =>
      rw [stopStep] at hstep
      split_ifs at hstep
      cases hstep
      exact h.retire hC rfl rfl rfl
  case tearingDown.go inst =>
      exact h.keep hC rfl id (undisturbed_cancel inst) (adds_of_eq rfl)
  case halting.go =>
      exact h.keep hC rfl id (undisturbed_of_eq rfl) (adds_cons rfl (by simp))

lemma restrained_loginStep (h : Restrained s) (hc : s.calls[c]? = some p)
    (hstep : s.loginStep c p i = some t) : Restrained t := by
  have hC := consistent_loginStep h.consistent hc hstep
  have hset (p' : Call) (hC : Consistent (s.setCall c p')) : Restrained (s.setCall c p') :=
    h.keep hC rfl id (undisturbed_of_eq rfl) (adds_of_eq rfl)
  have hshown {gen : ℕ}
      (hC : Consistent ((s.note (.node (.call c)) gen .shown).setCall c .over)) :
      Restrained ((s.note (.node (.call c)) gen .shown).setCall c .over) :=
    h.keep hC rfl id (undisturbed_of_eq rfl) (adds_cons rfl (by simp))
  cases p <;> cases i <;> try cases hstep
  case loggingIn.go =>
      rw [loginStep] at hstep
      split_ifs at hstep
      cases hi : s.inst <;> simp only [hi] at hstep <;> cases hstep <;> exact hset _ hC
  case noting.go => exact hset _ hC
  case asking.go => exact hset _ hC
  case asking.fail => exact hset _ hC
  case polling.go =>
      rw [loginStep] at hstep
      split_ifs at hstep <;> cases hstep
      · exact hshown hC
      · exact h
  case polling.answer gen before st waited =>
      cases st with
      | error text => cases hstep
      | ok st =>
          simp only [loginStep] at hstep
          split_ifs at hstep
          cases hstep
          exact hset _ hC
  case polling.quit => exact hset _ hC
  case offering.go gen url =>
      obtain ⟨n, hn, hstep⟩ := Option.bind_eq_some_iff.mp hstep
      obtain ⟨n', hoffer, hstep⟩ := Option.map_eq_some_iff.mp hstep
      split_ifs at hstep <;> subst hstep
      · obtain ⟨l, rfl⟩ := Node.offer_frame hoffer
        exact h.keep hC rfl id (undisturbed_setNode _ hn fun ha => Node.acting_congr ha (.inl rfl) rfl
          (Node.holds_of_offer hoffer (by simp))) (adds_of_eq rfl)
      · exact hshown hC
  case committing.go gen =>
      obtain ⟨n, hn, hstep⟩ := Option.bind_eq_some_iff.mp hstep
      rcases hl : n.login with _ | ⟨_ | _ | _ | d, url⟩ <;> simp only [hl] at hstep <;>
        try cases hstep
      split_ifs at hstep
      cases hstep
      refine h.keep hC (publish_gen ..) (fun hs => (publish_signedOut
          (s.setNode gen { n with login := none }) ..).symm.trans hs) (fun g m hm => ?_)
        (adds_publish (.node (.call c)) (s := s.setNode gen { n with login := none }) (by simp) rfl)
      refine undisturbed_setNode { n with login := none } hn
        (fun ha => Node.acting_congr ha (.inl rfl) rfl fun _ => rfl) g m ?_
      rw [← publish_nodes (s.setNode gen { n with login := none }) (.node (.call c)) gen
        (.loginRequired url)]
      exact hm

lemma restrained_logoutStep (h : Restrained s) (hc : s.calls[c]? = some p)
    (hrespect : respectful s (.call c i) = true) (hstep : s.logoutStep c p i = some t) :
    Restrained t := by
  have hC := consistent_logoutStep h.consistent hc hstep
  have hset (p' : Call) (hC : Consistent (s.setCall c p')) : Restrained (s.setCall c p') :=
    h.keep hC rfl id (undisturbed_of_eq rfl) (adds_of_eq rfl)
  cases p <;> cases i <;> try cases hstep
  case loggingOut.go =>
      rw [logoutStep] at hstep
      split_ifs at hstep
      cases hi : s.inst <;> simp only [hi] at hstep <;> cases hstep <;> exact hset _ hC
  case signingOut.go => exact hset _ hC
  case signingOut.fail => exact hset _ hC
  case parking.go gen =>
      have hor : gen ≠ s.gen ∨ s.dormant gen = true := by
        rw [respectful, hc] at hrespect
        simpa using hrespect
      refine ⟨hC, fun n hs hn => ?_, fun e he => ?_⟩
      · have hso : (if gen = s.gen then some gen else s.signedOut) = some s.gen := hs
        have hn' : s.nodes s.gen = some n := hn
        split_ifs at hso with hg
        · subst hg
          simpa [dormant, hn'] using hor.resolve_left (not_not.mpr rfl)
        · exact h.dormant n hso hn'
      · rcases List.mem_cons.mp he with rfl | he
        · exact fun hsource => by cases hsource
        · exact h.trace e he

lemma restrained_nodeStep (h : Restrained s) {gen : ℕ} {ev : Node.Event}
    (hrespect : respectful s (.node gen ev) = true) (hstep : s.nodeStep gen ev = some t) :
    Restrained t := by
  have hC := consistent_nodeStep h.consistent hstep
  obtain ⟨n, n', act, who, so, hn, hns, hwho, hso, rfl⟩ := nodeStep_cases hstep
  have hharmless (hs : s.signedOut = some gen) (hg : gen = s.gen) :
      n'.acting = false ∧ (who = .watch → undoes act = false) := by
    subst hg
    have hjudged (st : PollAnswer) (hst : n.watch = .judging st) (hev : ev = .watch .go) :
        n.reopens s.status st = false := by
      subst hev
      simpa [respectful, hn, hst, hs] using hrespect
    obtain ⟨ha, hact⟩ := Node.harmless_of_step (h.dormant n hs hn) hjudged hns
    exact ⟨ha, fun hw => hact (hwho.trans (congrArg some hw))⟩
  obtain ⟨status, alone, trace, ht⟩ := (s.setNode gen n').perform_frame (.node who) gen act
  refine ⟨hC, fun m hs hm => ?_, fun e he => ?_⟩
  · rw [ht] at hs hm
    have hs' : s.signedOut = some s.gen := by
      rcases hso with rfl | rfl
      · exact hs
      · cases hs
    rcases of_setNode hm with ⟨hg, rfl⟩ | hm
    · have hg' : s.gen = gen := hg
      exact (hharmless (hg' ▸ hs') hg'.symm).1
    · exact h.dormant m hs' hm
  · have hnew (e : Entry) (hsource : e.source = .node who) (hact : e.act = act)
        (hgen : e.gen = gen) (hcurrent : e.current = s.gen)
        (hs : e.signedOut = decide (s.signedOut = some gen)) : Respected e := by
      intro hw hg hout
      rw [hact]
      rw [hs, decide_eq_true_eq] at hout
      rw [hsource] at hw
      rw [hgen, hcurrent] at hg
      cases hw
      exact (hharmless hout hg).2 rfl
    cases act with
    | quiet => exact h.trace e he
    | publish w =>
        have he : e ∈ ((s.setNode gen n').publish (.node who) gen w).trace := he
        rw [publish] at he
        split_ifs at he
        · rcases List.mem_cons.mp he with rfl | he
          · exact hnew _ rfl rfl rfl rfl rfl
          · exact h.trace e he
        · exact h.trace e he
    | nudge =>
        rcases List.mem_cons.mp he with rfl | he
        · exact hnew _ rfl rfl rfl rfl rfl
        · exact h.trace e he
    | shown =>
        rcases List.mem_cons.mp he with rfl | he
        · exact hnew _ rfl rfl rfl rfl rfl
        · exact h.trace e he

/-- Every respectful step keeps the watch loop restrained. -/
lemma restrained_step (h : Restrained s) {a : Action} (hrespect : respectful s a = true)
    (hstep : s.step go a = some t) : Restrained t := by
  cases a with
  | arrive k =>
      cases hstep
      exact restrained_arrive go h k
  | call c i =>
      obtain ⟨p, hc, hstep⟩ := Option.bind_eq_some_iff.mp hstep
      cases p <;> first
        | exact restrained_replaceStep h hc hstep
        | exact restrained_stopStep h hc hstep
        | exact restrained_loginStep h hc hstep
        | exact restrained_logoutStep h hc hrespect hstep
  | node gen ev => exact restrained_nodeStep h hrespect hstep

end Step

/-- **A sign-out is respected**: in every run in which a sign-out of the generation in force
lands while its watch loop is not on its way to act on an earlier poll, and in which the watch
loop takes no answer for its own to act on while the sign-out stands, the watch loop asks for no
link, publishes none and does not publish `connected` until the next `Login`, or until a poll
begun since reports that the node is running. -/
theorem signout_respected {cfg : NetworkConfig} {as : List Action}
    (hrun : Run (Guarded (fun s a => respectful s a) (step go)) (init cfg) as s) :
    ∀ e ∈ s.trace, Respected e := by
  have hinit : Restrained (init cfg) :=
    ⟨consistent_init cfg, fun n hs => (by cases hs), by simp [init]⟩
  exact (hrun.invariant (I := Restrained) (fun _ _ _ h hstep =>
    restrained_step h hstep.1 hstep.2) hinit).trace

/-! ### A poll between the two steps of a sign-out -/

/-- The answer of a daemon that waits for a sign-in and has no link yet. -/
def noLink : PollAnswer := ⟨.needsLogin, [], [], 0⟩

/-- A poll of the watch loop of generation `1`, up to the judgement of its answer. -/
def watchPoll (st : PollAnswer) : List Action :=
  [.node 1 (.watch .go), .node 1 (.watch (.answer (.ok st) false)), .node 1 (.watch .go)]

/-- A sign-out, and the first poll that finds it. -/
def signedOutRun : List Action := upRun ++ logoutRun ++ watchPoll noLink

theorem signout_respected_polled : ∃ s,
    Run (Guarded (fun s a => respectful s a) (step plainGo)) (init defaultFile.network)
      signedOutRun s ∧ s.signedOut = some 1 ∧ ∀ e ∈ s.trace, Respected e := by
  obtain ⟨s, hrun, hs⟩ := exists_guarded_run_of_exec (fun s a => respectful s a) (step plainGo)
    (init defaultFile.network) signedOutRun (fun s => s.signedOut = some 1) (by decide +kernel)
  exact ⟨s, hrun, of_decide_eq_true hs, signout_respected hrun⟩

/-- The node is signed out, the watch loop polls and takes the episode for its own, and only then
the status changes; the next poll finds no link either. -/
def undoneRun : List Action :=
  upRun ++ [.arrive .logout, .call 1 .go, .call 1 .go] ++ watchPoll noLink ++ [.call 1 .go,
    .node 1 (.watch .go), .node 1 (.watch .go), .node 1 (.watch .go), .node 1 (.watch (.ok none))]
    ++ watchPoll noLink ++ [.node 1 (.watch .go), .node 1 (.watch .go)]

/-- **A sign-out undone**: `Logout` has answered with success, no `Login` has been called and no
poll has found the node running, and the watch loop asks the control server for a new link. -/
theorem signout_undone : ∃ s,
    Run (Steps (step plainGo)) (init defaultFile.network) undoneRun s ∧
      (∀ p ∈ s.calls, p = .over) ∧ s.signedOut = some s.gen ∧
      ∃ e ∈ s.trace, e.source = .node .watch ∧ e.act = .nudge ∧ ¬ Respected e := by
  obtain ⟨s, hrun, hs⟩ := exists_run_of_exec (step plainGo) (init defaultFile.network)
    undoneRun (fun s => s.calls.all (fun p => p = .over) && s.signedOut = some s.gen &&
      s.trace.any fun e => e.source = .node .watch && e.gen = e.current && e.signedOut &&
        e.act = .nudge) (by decide +kernel)
  simp only [Bool.and_eq_true, List.all_eq_true, List.any_eq_true, decide_eq_true_eq] at hs
  obtain ⟨⟨hover, hso⟩, e, he, ⟨⟨hsource, hgen⟩, hout⟩, hact⟩ := hs
  refine ⟨s, hrun, hover, hso, e, he, hsource, hact, fun h => ?_⟩
  have hundoes := h hsource hgen hout
  rw [hact] at hundoes
  cases hundoes

end Generations

end LocalCast.Edge
