import LocalCast.Edge.Generations

/-!
What a retired generation can still publish, and what a late `Stop` does to a newer one.

* `Isolated`: nothing is committed on behalf of a retired generation, the status that is left
  once no call is pending is the one the last generation or the last `Stop` determined, a
  running generation is never shown as stopped, and nothing it attempts is refused that would
  not have been refused to it alone.
* `timely`: the write of a `Stop` finds no generation announced since, and the write of a
  `Logout` its own generation in force.
* `isolated_step`, `generations_isolated`: over runs in which these writes are timely, the
  generations are isolated.
* `late_stop`: a `Start` that overtakes the teardown of a `Stop`.
-/

namespace LocalCast.Edge

open JsString Runs

namespace Generations

variable {go : GoLibrary} {s t : Generations}

/-! ### The law -/

/-- A call that has retired a generation to stop it, and has yet to say so. -/
def stops : Call → Bool
  | .tearingDown _ | .halting => true
  | _ => false

/-- An effect keeps to its generation: it is not committed once the generation is retired, and
it is refused to the generation in force only where it would be refused to it alone. -/
structure KeepsTo (e : Entry) : Prop where
  current : ∀ w, e.act = .publish w → e.source ≠ .stop → e.before.apply w ≠ none →
    e.gen = e.current
  refused : ∀ w, e.act = .publish w → e.gen = e.current → e.before.apply w = none →
    e.alone.apply w = none

/-- The generations do not leak into one another. -/
structure Isolated (s : Generations) : Prop where
  keepsTo : ∀ e ∈ s.trace, KeepsTo e
  settled : (∀ p ∈ s.calls, p = .over) → s.status = s.alone
  running : s.inst = some s.gen → s.status.state ≠ .stopped

/-- The write of a `Stop` lands before a newer generation has been announced, and the write of
a `Logout` while its generation is in force, unless it is refused. -/
def timely (s : Generations) : Action → Bool
  | .call c .go =>
      match s.calls[c]? with
      | some .halting => s.latest ≠ .replace true
      | some (.parking gen) => gen = s.gen || !canTransition s.status.state .loginRequired
      | _ => true
  | _ => true

/-- What the status is made of, whoever retired last. -/
structure Determined (s : Generations) : Prop where
  running : s.latest = .replace true → s.status = s.alone ∧ s.alone.state ≠ .stopped
  silent : s.latest = .replace false → s.alone = .fresh .starting
  stopped : s.latest = .stop → s.alone = .fresh .stopped ∧
    (s.status = s.alone ∨ ∃ (c : ℕ) (p : _), s.calls[c]? = some p ∧ stops p = true)

/-- Determined, with a trace that keeps to its generations. -/
structure Orderly (s : Generations) : Prop where
  consistent : Consistent s
  determined : Determined s
  trace : ∀ e ∈ s.trace, KeepsTo e

lemma Orderly.isolated (h : Orderly s) : Isolated s where
  keepsTo := h.trace
  settled hover := by
    cases hl : s.latest with
    | stop =>
        refine (h.determined.stopped hl).2.resolve_right ?_
        rintro ⟨c, p, hc, hp⟩
        rw [hover p (List.mem_of_getElem? hc)] at hp
        cases hp
    | replace announced =>
        cases announced with
        | true => exact (h.determined.running hl).1
        | false =>
            obtain ⟨c, cfg, hc⟩ := h.consistent.silent hl
            cases hover _ (List.mem_of_getElem? hc)
  running hi := by
    obtain ⟨n, hn⟩ := Option.ne_none_iff_exists'.mp (h.consistent.served _ (.inl hi))
    obtain ⟨hs, hstate⟩ := h.determined.running (h.consistent.latest_of_node hn rfl)
    rwa [hs]

lemma determined_init (cfg : NetworkConfig) : Determined (init cfg) where
  running h := by cases h
  silent h := by cases h
  stopped _ := ⟨rfl, .inl rfl⟩

/-! ### What a write keeps -/

/-- A step that changes no status, and ends no `Stop`, leaves the status determined. -/
lemma Determined.keep (h : Determined s) (hlatest : t.latest = s.latest)
    (hstatus : t.status = s.status) (halone : t.alone = s.alone)
    (hcalls : ∀ (c : ℕ) p, s.calls[c]? = some p → stops p = true →
      ∃ (d : ℕ) (q : _), t.calls[d]? = some q ∧ stops q = true) : Determined t where
  running hl := by
    rw [hstatus, halone]
    exact h.running (hlatest ▸ hl)
  silent hl := by
    rw [halone]
    exact h.silent (hlatest ▸ hl)
  stopped hl := by
    rw [hstatus, halone]
    obtain ⟨ha, hor⟩ := h.stopped (hlatest ▸ hl)
    refine ⟨ha, hor.imp id ?_⟩
    rintro ⟨c, p, hc, hp⟩
    exact hcalls c p hc hp

lemma exists_stops_set {c d : ℕ} {p p' q : Call} (hc : s.calls[c]? = some p)
    (hp : stops p = true → stops p' = true) (hd : s.calls[d]? = some q) (hq : stops q = true) :
    ∃ (e : ℕ) (r : _), (s.calls.set c p')[e]? = some r ∧ stops r = true := by
  by_cases hdc : d = c
  · subst hdc
    rw [hc] at hd
    cases hd
    exact ⟨d, p', getElem?_setCall_self hc, hp hq⟩
  · exact ⟨d, q, by rw [List.getElem?_set_ne (Ne.symm hdc)]; exact hd, hq⟩

/-- A call moves on, and nothing is published. -/
lemma Determined.set (h : Determined s) {c : ℕ} {p p' : Call} (hc : s.calls[c]? = some p)
    (hcalls : t.calls = s.calls.set c p') (hlatest : t.latest = s.latest)
    (hstatus : t.status = s.status) (halone : t.alone = s.alone)
    (hstops : stops p = true → stops p' = true) : Determined t :=
  h.keep hlatest hstatus halone fun _ _ hd hq => by
    rw [hcalls]
    exact exists_stops_set hc hstops hd hq

/-- An effect that is no write keeps to its generation. -/
lemma keepsTo_note {source : Source} {gen : ℕ} {act : Act} (hT : ∀ e ∈ s.trace, KeepsTo e)
    (hact : ∀ w, act ≠ .publish w) : ∀ e ∈ (s.note source gen act).trace, KeepsTo e := by
  intro e he
  rcases List.mem_cons.mp he with rfl | he
  · exact ⟨fun w hw => absurd hw (hact w), fun w hw => absurd hw (hact w)⟩
  · exact hT e he

/-- A write of the generation in force reaches the status and what it has determined alone
alike. -/
lemma orderly_publish (source : Source) (gen : ℕ) (w : Write) (hD : Determined s)
    (hT : ∀ e ∈ s.trace, KeepsTo e) (hlatest : gen = s.gen → s.latest = .replace true)
    (hsource : source ≠ .stop) (hw : w.target ≠ some .stopped) :
    Determined (s.publish source gen w) ∧ ∀ e ∈ (s.publish source gen w).trace, KeepsTo e := by
  rw [publish]
  split_ifs with hg
  · subst hg
    have hl := hlatest rfl
    obtain ⟨hs, hstate⟩ := hD.running hl
    have halone : (s.land source s.gen w).alone = (s.alone.apply w).getD s.alone :=
      if_pos ⟨rfl, hsource⟩
    refine ⟨⟨fun _ => ?_, fun hl' => ?_, fun hl' => ?_⟩, fun e he => ?_⟩
    · rw [halone]
      refine ⟨by rw [land, hs], ?_⟩
      cases ha : s.alone.apply w with
      | none => exact hstate
      | some st =>
          rw [Option.getD_some, state_of_apply ha]
          cases htarget : w.target with
          | none => exact hstate
          | some dst =>
              rw [Option.getD_some]
              rintro rfl
              exact hw htarget
    · exact absurd (hl.symm.trans hl') (by simp)
    · exact absurd (hl.symm.trans hl') (by simp)
    · rcases List.mem_cons.mp he with rfl | he
      · refine ⟨fun _ _ _ _ => rfl, fun w' _ _ hrefused => ?_⟩
        dsimp only at hrefused ⊢
        rw [← hs]
        exact hrefused
      · exact hT e he
  · exact ⟨hD, hT⟩

/-! ### What a step keeps -/

section Step

variable {c : ℕ} {p : Call} {i : Input}

lemma orderly_arrive (go : GoLibrary) (h : Orderly s) (k : CallKind) :
    Orderly (s.arrive go k) := by
  have hC := consistent_arrive go h.consistent k
  obtain ⟨p, so, -, ht⟩ := arrive_eq go s k
  rw [ht] at hC ⊢
  exact ⟨hC, h.determined.keep rfl rfl rfl fun d q hd hq =>
    ⟨d, q, (List.getElem?_append_left (List.getElem?_eq_some_iff.mp hd).1).trans hd, hq⟩, h.trace⟩

/-- A retirement leaves what a fresh start or stop would determine. -/
lemma determined_retire (hl : (t.latest = .replace false ∧ t.alone = .fresh .starting) ∨
    (t.latest = .stop ∧ t.alone = .fresh .stopped ∧
      ∃ (d : ℕ) (q : _), t.calls[d]? = some q ∧ stops q = true)) : Determined t where
  running hl' := by
    rcases hl with ⟨hl, -⟩ | ⟨hl, -⟩ <;> rw [hl] at hl' <;> cases hl'
  silent hl' := by
    rcases hl with ⟨-, ha⟩ | ⟨hl, -⟩
    · exact ha
    · rw [hl] at hl'
      cases hl'
  stopped hl' := by
    rcases hl with ⟨hl, -⟩ | ⟨-, ha, hex⟩
    · rw [hl] at hl'
      cases hl'
    · exact ⟨ha, .inr hex⟩

lemma orderly_replaceStep (h : Orderly s) (hc : s.calls[c]? = some p)
    (hstep : s.replaceStep c p i = some t) : Orderly t := by
  have hC := consistent_replaceStep h.consistent hc hstep
  obtain ⟨hCs, hD, hT⟩ := h
  cases p <;> cases i <;> try cases hstep
  case reading.go =>
      rw [replaceStep] at hstep
      split_ifs at hstep
      cases hstep
      exact ⟨hC, hD.set hc rfl rfl rfl rfl (by simp [stops]), hT⟩
  case entering.go cfg =>
      rw [replaceStep] at hstep
      split_ifs at hstep with hmu
      cases hstep
      exact ⟨hC, determined_retire (.inl ⟨rfl, rfl⟩), hT⟩
  case announcing.go gen cfg =>
      obtain ⟨-, rfl, hl⟩ := hCs.lock c _ _ hc rfl
      have hpub : s.publish .replace s.gen .starting = s.land .replace s.gen .starting :=
        if_pos rfl
      rw [hpub] at hC ⊢
      refine ⟨hC, ?_, fun e he => ?_⟩
      · refine { running := fun _ => ?_, silent := fun hl' => (by cases hl')
                 stopped := fun hl' => (by cases hl') }
        change (s.land .replace s.gen .starting).status =
            (s.land .replace s.gen .starting).alone ∧
          (s.land .replace s.gen .starting).alone.state ≠ .stopped
        simp [land]
      · rcases List.mem_cons.mp he with rfl | he
        · refine ⟨fun _ _ _ _ => rfl, fun w hw _ hrefused => ?_⟩
          cases hw
          simp at hrefused
        · exact hT e he
  case tearing.go gen cfg =>
      exact ⟨hC, hD.set hc rfl rfl rfl rfl (by simp [stops]), hT⟩
  case launching.go gen =>
      obtain ⟨n, hn, rfl⟩ := Option.map_eq_some_iff.mp hstep
      exact ⟨hC, hD.set hc rfl rfl rfl rfl (by simp [stops]), hT⟩
  case launching.fail gen err =>
      exact ⟨hC, hD.set hc rfl rfl rfl rfl (by simp [stops]), hT⟩
  case reporting.go gen err =>
      obtain ⟨n, hn, rfl⟩ := Option.map_eq_some_iff.mp hstep
      obtain ⟨-, rfl, hl⟩ := hCs.lock c _ _ hc rfl
      have hD0 : Determined (s.setNode s.gen { n with bringUp := .failed }) :=
        ⟨hD.running, hD.silent, hD.stopped⟩
      obtain ⟨hD', hT'⟩ := orderly_publish .replace s.gen (.error err.code err.message) hD0 hT
        (fun _ => hl) (by simp) (by simp [Write.target])
      obtain ⟨status, alone, trace, ht⟩ := (s.setNode s.gen
        { n with bringUp := .failed }).publish_frame .replace s.gen (.error err.code err.message)
      rw [ht] at hC hD' hT' ⊢
      exact ⟨hC, hD'.set hc rfl rfl rfl rfl (by simp [stops]), hT'⟩

lemma orderly_stopStep (h : Orderly s) (hc : s.calls[c]? = some p)
    (htimely : timely s (.call c i) = true) (hstep : s.stopStep c p i = some t) : Orderly t := by
  have hC := consistent_stopStep h.consistent hc hstep
  obtain ⟨hCs, hD, hT⟩ := h
  cases p <;> cases i <;> try cases hstep
  case stopping.go =>
      rw [stopStep] at hstep
      split_ifs at hstep with hmu
      cases hstep
      exact ⟨hC, determined_retire (.inr ⟨rfl, rfl, c, _, getElem?_setCall_self hc, rfl⟩), hT⟩
  case tearingDown.go inst =>
      exact ⟨hC, hD.set hc rfl rfl rfl rfl (fun _ => rfl), hT⟩
  case halting.go =>
      have hl : s.latest ≠ .replace true := by
        rw [timely, hc] at htimely
        exact of_decide_eq_true htimely
      have halone : (s.land .stop s.gen .stopped).alone = s.alone := if_neg (by simp)
      have hstatus : (s.land .stop s.gen .stopped).status = .fresh .stopped := by
        simp [land]
      refine ⟨hC, { running := fun hl' => absurd hl' hl, silent := fun hl' => ?_
                    stopped := fun hl' => ?_ }, fun e he => ?_⟩
      · exact halone.trans (hD.silent hl')
      · obtain ⟨ha, -⟩ := hD.stopped hl'
        refine ⟨halone.trans ha, .inl ?_⟩
        exact hstatus.trans (halone.trans ha).symm
      · rcases List.mem_cons.mp he with rfl | he
        · refine ⟨fun _ _ _ _ => rfl, fun w hw _ hrefused => ?_⟩
          cases hw
          simp at hrefused
        · exact hT e he

lemma orderly_loginStep (h : Orderly s) (hc : s.calls[c]? = some p)
    (hstep : s.loginStep c p i = some t) : Orderly t := by
  have hC := consistent_loginStep h.consistent hc hstep
  obtain ⟨hCs, hD, hT⟩ := h
  have hset (p' : Call) (hp : stops p = false) (ht : Consistent (s.setCall c p')) :
      Orderly (s.setCall c p') :=
    ⟨ht, hD.set hc rfl rfl rfl rfl (by simp [hp]), hT⟩
  have hshown {gen : ℕ} (ht : Consistent ((s.note (.node (.call c)) gen .shown).setCall c .over))
      (hp : stops p = true → stops .over = true) :
      Orderly ((s.note (.node (.call c)) gen .shown).setCall c .over) :=
    ⟨ht, hD.set hc rfl rfl rfl rfl hp, keepsTo_note hT (by simp)⟩
  cases p <;> cases i <;> try cases hstep
  case loggingIn.go =>
      rw [loginStep] at hstep
      split_ifs at hstep
      cases hi : s.inst <;> simp only [hi] at hstep <;> cases hstep <;> exact hset _ rfl hC
  case noting.go => exact hset _ rfl hC
  case asking.go => exact hset _ rfl hC
  case asking.fail => exact hset _ rfl hC
  case polling.go =>
      rw [loginStep] at hstep
      split_ifs at hstep
      · cases hstep
        exact hshown hC (by simp [stops])
      · cases hstep
        exact ⟨hC, hD, hT⟩
  case polling.answer gen before st waited =>
      cases st with
      | error text => cases hstep
      | ok st =>
          simp only [loginStep] at hstep
          split_ifs at hstep
          cases hstep
          exact hset _ rfl hC
  case polling.quit => exact hset _ rfl hC
  case offering.go gen url =>
      obtain ⟨n, hn, hstep⟩ := Option.bind_eq_some_iff.mp hstep
      obtain ⟨n', -, hstep⟩ := Option.map_eq_some_iff.mp hstep
      split_ifs at hstep <;> subst hstep
      · exact ⟨hC, hD.set hc rfl rfl rfl rfl (by simp [stops]), hT⟩
      · exact hshown hC (by simp [stops])
  case committing.go gen =>
      obtain ⟨n, hn, hstep⟩ := Option.bind_eq_some_iff.mp hstep
      rcases hl : n.login with _ | ⟨_ | _ | _ | d, url⟩ <;> simp only [hl] at hstep <;>
        try cases hstep
      split_ifs at hstep
      cases hstep
      have hD0 : Determined (s.setNode gen { n with login := none }) :=
        ⟨hD.running, hD.silent, hD.stopped⟩
      obtain ⟨hD', hT'⟩ := orderly_publish (.node (.call c)) gen (.loginRequired url) hD0 hT
        (hCs.latest_of_node hn) (by simp) (by simp [Write.target])
      obtain ⟨status, alone, trace, ht⟩ := (s.setNode gen { n with login := none }).publish_frame
        (.node (.call c)) gen (.loginRequired url)
      rw [ht] at hC hD' hT' ⊢
      exact ⟨hC, hD'.set hc rfl rfl rfl rfl (by simp [stops]), hT'⟩

/-- A write that the state machine refuses changes nothing, on behalf of whichever
generation. -/
lemma land_refused (source : Source) {gen : ℕ} {w : Write} (hw : s.status.apply w = none)
    (hg : gen ≠ s.gen) : (s.land source gen w).status = s.status ∧
      (s.land source gen w).alone = s.alone := by
  refine ⟨?_, if_neg fun h => hg h.1⟩
  change (s.status.apply w).getD s.status = s.status
  rw [hw, Option.getD_none]

lemma orderly_logoutStep (h : Orderly s) (hc : s.calls[c]? = some p)
    (htimely : timely s (.call c i) = true) (hstep : s.logoutStep c p i = some t) : Orderly t := by
  have hC := consistent_logoutStep h.consistent hc hstep
  obtain ⟨hCs, hD, hT⟩ := h
  have hset (p' : Call) (hp : stops p = false) (ht : Consistent (s.setCall c p')) :
      Orderly (s.setCall c p') :=
    ⟨ht, hD.set hc rfl rfl rfl rfl (by simp [hp]), hT⟩
  cases p <;> cases i <;> try cases hstep
  case loggingOut.go =>
      rw [logoutStep] at hstep
      split_ifs at hstep
      cases hi : s.inst <;> simp only [hi] at hstep <;> cases hstep <;> exact hset _ rfl hC
  case signingOut.go => exact hset _ rfl hC
  case signingOut.fail => exact hset _ rfl hC
  case parking.go gen =>
      have hor : gen = s.gen ∨ canTransition s.status.state .loginRequired = false := by
        rw [timely, hc] at htimely
        simpa using htimely
      by_cases hg : gen = s.gen
      · subst hg
        obtain ⟨n, hn⟩ := Option.ne_none_iff_exists'.mp (hCs.served _ (.inr ⟨c, _, hc, rfl⟩))
        have hl := hCs.latest_of_node hn rfl
        obtain ⟨hD', hT'⟩ := orderly_publish .logout s.gen (.loginRequired []) hD hT
          (fun _ => hl) (by simp) (by simp [Write.target])
        rw [publish, if_pos rfl] at hD' hT'
        exact ⟨hC, hD'.set hc rfl rfl rfl rfl (by simp [stops]), hT'⟩
      · have hrefused : s.status.apply (.loginRequired []) = none :=
          apply_eq_none_iff.mpr ⟨_, rfl, hor.resolve_left hg⟩
        obtain ⟨hstatus, halone⟩ := land_refused .logout hrefused hg
        refine ⟨hC, hD.set hc rfl rfl hstatus halone (by simp [stops]), fun e he => ?_⟩
        rcases List.mem_cons.mp he with rfl | he
        · refine ⟨fun w hw _ hne => ?_, fun w _ heq => absurd heq hg⟩
          cases hw
          exact absurd hrefused hne
        · exact hT e he

lemma orderly_nodeStep (h : Orderly s) {gen : ℕ} {ev : Node.Event}
    (hstep : s.nodeStep gen ev = some t) : Orderly t := by
  have hC := consistent_nodeStep h.consistent hstep
  obtain ⟨hCs, hD, hT⟩ := h
  obtain ⟨n, n', act, who, so, hn, hns, -, -, rfl⟩ := nodeStep_cases hstep
  have heffect := (Node.effect_of_step (hCs.watched gen n hn) hns).1
  have hD0 : Determined (s.setNode gen n') := ⟨hD.running, hD.silent, hD.stopped⟩
  cases act with
  | quiet => exact ⟨hC, ⟨hD.running, hD.silent, hD.stopped⟩, hT⟩
  | publish w =>
      obtain ⟨hD', hT'⟩ := orderly_publish (.node who) gen w hD0 hT (hCs.latest_of_node hn)
        (by simp) heffect.target
      exact ⟨hC, ⟨hD'.running, hD'.silent, hD'.stopped⟩, hT'⟩
  | nudge => exact ⟨hC, ⟨hD.running, hD.silent, hD.stopped⟩, keepsTo_note hT (by simp)⟩
  | shown => exact ⟨hC, ⟨hD.running, hD.silent, hD.stopped⟩, keepsTo_note hT (by simp)⟩

/-- Every timely step keeps the edge orderly. -/
lemma orderly_step (h : Orderly s) {a : Action} (htimely : timely s a = true)
    (hstep : s.step go a = some t) : Orderly t := by
  cases a with
  | arrive k =>
      cases hstep
      exact orderly_arrive go h k
  | call c i =>
      obtain ⟨p, hc, hstep⟩ := Option.bind_eq_some_iff.mp hstep
      cases p <;> first
        | exact orderly_replaceStep h hc hstep
        | exact orderly_stopStep h hc htimely hstep
        | exact orderly_loginStep h hc hstep
        | exact orderly_logoutStep h hc htimely hstep
  | node gen ev => exact orderly_nodeStep h hstep

end Step

/-- **Generations do not leak**: in every run of calls and goroutines in which the write of a
`Stop` finds no generation announced since, and that of a `Logout` its own generation in force,
nothing is committed for a retired generation, the status left once no call is pending is the
one the last generation or `Stop` determined, a running generation is never shown as stopped,
and nothing it attempts is refused on account of another. -/
theorem generations_isolated {cfg : NetworkConfig} {as : List Action}
    (hrun : Run (Guarded (fun s a => timely s a) (step go)) (init cfg) as s) : Isolated s :=
  (hrun.invariant (I := Orderly) (fun _ _ _ h hstep => orderly_step h hstep.1 hstep.2)
    ⟨consistent_init cfg, determined_init cfg, by simp [init]⟩).isolated

/-! ### A start that overtakes a stop -/

/-- A library that parses no URL, for runs in which no configuration is applied. -/
def plainGo : GoLibrary := ⟨fun _ => none, id⟩

/-- A `replace` of the call `c`, from its arrival to the launch of its node. -/
def replaceRun (c : ℕ) : List Action :=
  [.arrive .start, .call c .go, .call c .go, .call c .go, .call c .go, .call c .go]

/-- A start, a stop that ends, and another start. -/
def startStopStart : List Action :=
  replaceRun 0 ++ [.arrive .stop, .call 1 .go, .call 1 .go, .call 1 .go] ++ replaceRun 2

theorem generations_isolated_restarted : ∃ s,
    Run (Guarded (fun s a => timely s a) (step plainGo)) (init defaultFile.network)
      startStopStart s ∧ s.inst = some 3 ∧ Isolated s := by
  obtain ⟨s, hrun, hs⟩ := exists_guarded_run_of_exec (fun s a => timely s a) (step plainGo)
    (init defaultFile.network) startStopStart (fun s => s.inst = some 3) (by decide +kernel)
  exact ⟨s, hrun, of_decide_eq_true hs, generations_isolated hrun⟩

/-- The second start is called while the stop tears the first generation down, whose last write
lands when the new node has been launched. -/
def stopOvertaken : List Action :=
  replaceRun 0 ++ [.arrive .stop, .call 1 .go] ++ replaceRun 2 ++ [.call 1 .go, .call 1 .go]

/-- **A late stop**: no call is pending, the generation of the second start runs, and the status
says `stopped`; what its bring-up publishes next is refused. -/
theorem late_stop : ∃ s,
    Run (Steps (step plainGo)) (init defaultFile.network) stopOvertaken s ∧
      (∀ p ∈ s.calls, p = .over) ∧ s.inst = some s.gen ∧ s.status.state = .stopped ∧
      s.alone.state = .starting ∧ ¬ Isolated s ∧
      ∃ t, Run (Steps (step plainGo)) s [.node 3 (.bringUp .go)] t ∧ ¬ Isolated t ∧
        ∃ e ∈ t.trace, e.gen = t.gen ∧ e.act = .publish .connecting ∧
          e.before.apply .connecting = none ∧ e.alone.apply .connecting ≠ none := by
  obtain ⟨s, hrun, hs⟩ := exists_run_of_exec (step plainGo) (init defaultFile.network)
    stopOvertaken (fun s => s.calls.all (fun p => p = .over) && s.inst = some s.gen &&
      s.status.state = .stopped && s.alone.state = .starting &&
      (exec (step plainGo) s [.node 3 (.bringUp .go)]).any fun t =>
        t.trace.any fun e => e.gen = t.gen && e.current = e.gen && e.act = .publish .connecting &&
          e.before.apply .connecting = none && e.alone.apply .connecting ≠ none)
    (by decide +kernel)
  simp only [Bool.and_eq_true, List.all_eq_true, decide_eq_true_eq] at hs
  obtain ⟨⟨⟨⟨hover, hinst⟩, hstate⟩, halone⟩, hnext⟩ := hs
  obtain ⟨t, hrun', ht⟩ := exists_run_of_exec _ _ _ _ hnext
  simp only [List.any_eq_true, Bool.and_eq_true, decide_eq_true_eq] at ht
  obtain ⟨e, he, ⟨⟨⟨hgen, hcurrent⟩, hact⟩, hbefore⟩, hlegal⟩ := ht
  refine ⟨s, hrun, hover, hinst, hstate, halone, fun h => h.running hinst hstate, t, hrun',
    fun h => hlegal ((h.keepsTo e he).refused _ hact hcurrent.symm hbefore), e, he, hgen, hact,
    hbefore, hlegal⟩

end Generations

end LocalCast.Edge
