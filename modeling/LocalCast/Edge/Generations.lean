import LocalCast.Edge.Node
import LocalCast.Foundations.Runs

/-!
The edge and its generations: `internal/edge/edge.go`.

* `Call`: where a pending `Start`, `Apply`, `Restart`, `Stop`, `Login` or `Logout` stands.
* `Generations`: the lock, the generation counter, the current instance and every instance ever
  launched, the calls, and the status store; three ghost fields say what the current
  generation alone would have published, who retired last, and whose sign-out stands.
* `land`, `publish`: a write, and a write through the generation gate. `Entry` records one.
* `step`: the arrival of a call, a step of a call, or a step of a generation.
* `Consistent`, `consistent_step`: the generation counter, the lock and the instances agree.
-/

namespace LocalCast.Edge

open JsString Runs

/-! ### The calls -/

/-- The calls of the control API, and `Start`. -/
inductive CallKind
  | start
  | apply (cfg : NetworkConfig)
  | restart
  | stop
  | login
  | logout
  deriving DecidableEq

/-- A sign-in link that a poll has reported. -/
abbrev Link := {url : JsString // url ≠ []}

/-- Where a call stands. `replace` runs from `entering` to `launching` or `reporting`, and
holds the lock after `entering`; `Stop` gives the lock up before its teardown. -/
inductive Call
  | reading
  | entering (cfg : NetworkConfig)
  | announcing (gen : ℕ) (cfg : NetworkConfig)
  | tearing (gen : ℕ) (cfg : NetworkConfig)
  | launching (gen : ℕ)
  | reporting (gen : ℕ) (err : EdgeError)
  | stopping
  | tearingDown (inst : Option ℕ)
  | halting
  | loggingIn
  | noting (gen : ℕ)
  | asking (gen : ℕ) (before : JsString)
  | polling (gen : ℕ) (before : JsString)
  | offering (gen : ℕ) (url : Link)
  | committing (gen : ℕ)
  | loggingOut
  | signingOut (gen : ℕ)
  | parking (gen : ℕ)
  | over
  deriving DecidableEq

/-- The generation a call holds the lock for. -/
def Call.holdsFor : Call → Option ℕ
  | .announcing gen _ | .tearing gen _ | .launching gen | .reporting gen _ => some gen
  | _ => none

/-! ### The edge -/

/-- Who ended the last generation: a `Stop`, or a `replace`, which says so once it has
published `starting`. -/
inductive Retirement
  | stop
  | replace (announced : Bool)
  deriving DecidableEq

/-- Who writes to the status store. -/
inductive Source
  | replace
  | stop
  | logout
  | node (who : Publisher)
  deriving DecidableEq

/-- One effect: who caused it, on behalf of which generation and while which one was in force,
the status before and after, the status the generation in force alone had determined, and
whether a sign-out of the generation it acts for stood. -/
structure Entry where
  source : Source
  act : Act
  gen : ℕ
  current : ℕ
  before : EdgeStatus
  alone : EdgeStatus
  after : EdgeStatus
  signedOut : Bool
  deriving DecidableEq

/-- `Edge`, with the status store, the pending calls and the instances. `alone`, `latest`,
`logouts`, `signedOut` and `trace` only record. -/
structure Generations where
  status : EdgeStatus
  gen : ℕ
  cfg : NetworkConfig
  inst : Option ℕ
  nodes : ℕ → Option Node
  mu : Option ℕ
  calls : List Call
  alone : EdgeStatus
  latest : Retirement
  logouts : ℕ
  signedOut : Option ℕ
  trace : List Entry

/-- `New`: nothing runs, and the status is `stopped`. -/
def Generations.init (cfg : NetworkConfig) : Generations :=
  ⟨.fresh .stopped, 0, cfg, none, fun _ => none, none, [], .fresh .stopped, .stop, 0, none, []⟩

namespace Generations

/-- A write to the status store on behalf of a generation, or by a `Stop`, which has determined
its status when it retired the generation; one the state machine refuses changes nothing. -/
def land (s : Generations) (source : Source) (gen : ℕ) (w : Write) : Generations :=
  { s with
    status := (s.status.apply w).getD s.status
    alone := if gen = s.gen ∧ source ≠ .stop then (s.alone.apply w).getD s.alone else s.alone
    trace := ⟨source, .publish w, gen, s.gen, s.status, s.alone,
      (s.status.apply w).getD s.status, s.signedOut = some gen⟩ :: s.trace }

/-- `Edge.publish`: a write that is dropped where its generation has been retired. -/
def publish (s : Generations) (source : Source) (gen : ℕ) (w : Write) : Generations :=
  if gen = s.gen then s.land source gen w else s

/-- An effect that leaves the status alone. -/
def note (s : Generations) (source : Source) (gen : ℕ) (act : Act) : Generations :=
  { s with trace := ⟨source, act, gen, s.gen, s.status, s.alone, s.status,
      s.signedOut = some gen⟩ :: s.trace }

/-- What a step of a generation does to the outside. -/
def perform (s : Generations) (source : Source) (gen : ℕ) : Act → Generations
  | .quiet => s
  | .publish w => s.publish source gen w
  | .nudge => s.note source gen .nudge
  | .shown => s.note source gen .shown

/-- `context.CancelFunc` of an instance. -/
def cancel (s : Generations) (gen : Option ℕ) : Generations :=
  { s with nodes := fun g =>
      if gen = some g then (s.nodes g).map fun n => { n with cancelled := true } else s.nodes g }

def setNode (s : Generations) (gen : ℕ) (n : Node) : Generations :=
  { s with nodes := Function.update s.nodes gen (some n) }

def setCall (s : Generations) (c : ℕ) (p : Call) : Generations := { s with calls := s.calls.set c p }

/-- What the goroutines of a generation read. -/
def view (s : Generations) (gen : ℕ) : View := ⟨decide (gen = s.gen), s.status, s.logouts⟩

/-! ### Steps -/

variable (go : GoLibrary)

/-- A call arrives. `Apply` refuses a configuration that does not validate; a `Login` ends the
time for which a sign-out stands. -/
def arrive (s : Generations) : CallKind → Generations
  | .start | .restart => { s with calls := s.calls ++ [.reading] }
  | .apply cfg =>
      match validate go cfg.applyDefaults with
      | [] => { s with calls := s.calls ++ [.entering cfg.applyDefaults] }
      | _ => { s with calls := s.calls ++ [.over] }
  | .stop => { s with calls := s.calls ++ [.stopping] }
  | .login => { s with calls := s.calls ++ [.loggingIn], signedOut := none }
  | .logout => { s with calls := s.calls ++ [.loggingOut] }

/-- One step of a `replace`. -/
def replaceStep (s : Generations) (c : ℕ) : Call → Input → Option Generations
  | .reading, .go => if s.mu = none then some (s.setCall c (.entering s.cfg)) else none
  | .entering cfg, .go =>
      if s.mu = none then
        some { s with
          mu := some c, gen := s.gen + 1, latest := .replace false, alone := .fresh .starting
          calls := s.calls.set c (.announcing (s.gen + 1) cfg) }
      else none
  | .announcing gen cfg, .go =>
      some { (s.publish .replace gen .starting).setCall c (.tearing gen cfg) with
        latest := .replace true }
  | .tearing gen cfg, .go =>
      some { ((s.cancel s.inst).setNode gen (.launch cfg)).setCall c (.launching gen) with
        inst := none, cfg := cfg }
  | .launching gen, .go =>
      (s.nodes gen).map fun n =>
        { (s.setNode gen { n with bringUp := .begin }).setCall c .over with
          inst := some gen, mu := none }
  | .launching gen, .fail err => some (s.setCall c (.reporting gen err))
  | .reporting gen err, .go =>
      (s.nodes gen).map fun n =>
        { ((s.setNode gen { n with bringUp := .failed }).publish .replace gen
            (.error err.code err.message)).setCall c .over with
          mu := none }
  | _, _ => none

/-- One step of a `Stop`. -/
def stopStep (s : Generations) (c : ℕ) : Call → Input → Option Generations
  | .stopping, .go =>
      if s.mu = none then
        some { s with
          gen := s.gen + 1, inst := none, latest := .stop, alone := .fresh .stopped
          calls := s.calls.set c (.tearingDown s.inst) }
      else none
  | .tearingDown inst, .go => some ((s.cancel inst).setCall c .halting)
  | .halting, .go => some ((s.land .stop s.gen .stopped).setCall c .over)
  | _, _ => none

/-- One step of a `Login`. The answer of a poll carries the link it reports, if any; without
one the store is looked at. -/
def loginStep (s : Generations) (c : ℕ) : Call → Input → Option Generations
  | .loggingIn, .go =>
      if s.mu = none then
        some (match s.inst with
          | none => s.setCall c .over
          | some gen => s.setCall c (.noting gen))
      else none
  | .noting gen, .go => some (s.setCall c (.asking gen (loginURLOf s.status)))
  | .asking gen before, .go => some (s.setCall c (.polling gen before))
  | .asking _ _, .fail _ => some (s.setCall c .over)
  | .polling gen _, .answer (.ok st) _ =>
      if h : st.authURL ≠ [] then some (s.setCall c (.offering gen ⟨st.authURL, h⟩)) else none
  | .polling gen before, .go =>
      if loginURLOf s.status ≠ [] ∧ loginURLOf s.status ≠ before then
        some ((s.note (.node (.call c)) gen .shown).setCall c .over)
      else some s
  | .polling _ _, .quit => some (s.setCall c .over)
  | .offering gen url, .go =>
      (s.nodes gen).bind fun n =>
        (n.offer (.call c) url.1 s.status).map fun n' =>
          if n'.holds (.call c) then (s.setNode gen n').setCall c (.committing gen)
          else (s.note (.node (.call c)) gen .shown).setCall c .over
  | .committing gen, .go =>
      (s.nodes gen).bind fun n =>
        match n.login with
        | some (.call d, url) =>
            if d = c then
              some (((s.setNode gen { n with login := none }).publish (.node (.call c)) gen
                (.loginRequired url)).setCall c .over)
            else none
        | _ => none
  | _, _ => none

/-- One step of a `Logout`: the node is signed out first, and only then the status changes. -/
def logoutStep (s : Generations) (c : ℕ) : Call → Input → Option Generations
  | .loggingOut, .go =>
      if s.mu = none then
        some (match s.inst with
          | none => s.setCall c .over
          | some gen => s.setCall c (.signingOut gen))
      else none
  | .signingOut gen, .go => some (s.setCall c (.parking gen))
  | .signingOut _, .fail _ => some (s.setCall c .over)
  | .parking gen, .go =>
      some { (s.land .logout gen (.loginRequired [])).setCall c .over with
        logouts := if gen = s.gen then s.logouts + 1 else s.logouts
        signedOut := if gen = s.gen then some gen else s.signedOut }
  | _, _ => none

/-- One step of a pending call. -/
def callStep (s : Generations) (c : ℕ) (p : Call) (i : Input) : Option Generations :=
  match p with
  | .reading | .entering _ | .announcing .. | .tearing .. | .launching _ | .reporting .. =>
      s.replaceStep c p i
  | .stopping | .tearingDown _ | .halting => s.stopStep c p i
  | .loggingIn | .noting _ | .asking .. | .polling .. | .offering .. | .committing _ =>
      s.loginStep c p i
  | .loggingOut | .signingOut _ | .parking _ => s.logoutStep c p i
  | .over => none

/-- One step of a generation. -/
def nodeStep (s : Generations) (gen : ℕ) (ev : Node.Event) : Option Generations :=
  (s.nodes gen).bind fun n =>
    (n.step (s.view gen) ev).bind fun r =>
      (n.publisher ev).map fun who =>
        let t := (s.setNode gen r.1).perform (.node who) gen r.2
        if s.signedOut = some gen ∧ n.reportsRunning s.logouts ev = true then
          { t with signedOut := none }
        else t

/-- What happens next. -/
inductive Action
  | arrive (k : CallKind)
  | call (c : ℕ) (i : Input)
  | node (gen : ℕ) (ev : Node.Event)

/-- One step of the edge. -/
def step (s : Generations) : Action → Option Generations
  | .arrive k => some (s.arrive go k)
  | .call c i => s.calls[c]?.bind fun p => s.callStep c p i
  | .node gen ev => s.nodeStep gen ev

/-! ### What a step leaves alone -/

variable {go}

lemma publish_frame (s : Generations) (source : Source) (gen : ℕ) (w : Write) :
    ∃ status alone trace, s.publish source gen w =
      { s with status := status, alone := alone, trace := trace } := by
  rw [publish]
  split_ifs
  · exact ⟨_, _, _, rfl⟩
  · exact ⟨_, _, _, rfl⟩

@[simp] lemma publish_gen (s : Generations) (source : Source) (gen : ℕ) (w : Write) :
    (s.publish source gen w).gen = s.gen := by
  rw [publish]
  split_ifs <;> rfl

@[simp] lemma publish_nodes (s : Generations) (source : Source) (gen : ℕ) (w : Write) :
    (s.publish source gen w).nodes = s.nodes := by
  rw [publish]
  split_ifs <;> rfl

@[simp] lemma publish_calls (s : Generations) (source : Source) (gen : ℕ) (w : Write) :
    (s.publish source gen w).calls = s.calls := by
  rw [publish]
  split_ifs <;> rfl

lemma perform_frame (s : Generations) (source : Source) (gen : ℕ) (act : Act) :
    ∃ status alone trace, s.perform source gen act =
      { s with status := status, alone := alone, trace := trace } := by
  cases act with
  | quiet => exact ⟨_, _, _, rfl⟩
  | publish w => exact s.publish_frame source gen w
  | nudge => exact ⟨_, _, _, rfl⟩
  | shown => exact ⟨_, _, _, rfl⟩

/-- A step of a generation: its goroutine moves on, what it does is performed, and a sign-out
may cease to stand. -/
lemma nodeStep_cases {s t : Generations} {gen : ℕ} {ev : Node.Event}
    (h : s.nodeStep gen ev = some t) :
    ∃ n n' act who so, s.nodes gen = some n ∧ n.step (s.view gen) ev = some (n', act) ∧
      n.publisher ev = some who ∧ (so = s.signedOut ∨ so = none) ∧
      t = { (s.setNode gen n').perform (.node who) gen act with signedOut := so } := by
  rw [nodeStep] at h
  obtain ⟨n, hn, h⟩ := Option.bind_eq_some_iff.mp h
  obtain ⟨⟨n', act⟩, hstep, h⟩ := Option.bind_eq_some_iff.mp h
  obtain ⟨who, hwho, h⟩ := Option.map_eq_some_iff.mp h
  have hso : ((s.setNode gen n').perform (.node who) gen act).signedOut = s.signedOut := by
    obtain ⟨status, alone, trace, ht⟩ := (s.setNode gen n').perform_frame (.node who) gen act
    rw [ht]
    rfl
  dsimp only at h
  split_ifs at h
  · exact ⟨n, n', act, who, none, hn, hstep, hwho, .inr rfl, h.symm⟩
  · refine ⟨n, n', act, who, s.signedOut, hn, hstep, hwho, .inl rfl, ?_⟩
    rw [← h, ← hso]

/-! ### Consistency -/

/-- Whether a `replace` that holds the lock has said that it is starting. -/
def announced : Call → Bool
  | .announcing .. => false
  | _ => true

/-- The generation whose instance a call has made, and which it has yet to hand over. -/
def launches : Call → Option ℕ
  | .launching gen | .reporting gen _ => some gen
  | _ => none

/-- The generation whose node a `Logout` has signed out, or is about to: its write does not ask
whether that generation is still in force. -/
def serves : Call → Option ℕ
  | .signingOut gen | .parking gen => some gen
  | _ => none

/-- The edge or a `Logout` holds on to the instance of a generation. -/
def Served (s : Generations) (gen : ℕ) : Prop :=
  s.inst = some gen ∨ ∃ (c : ℕ) (p : _), s.calls[c]? = some p ∧ serves p = some gen

/-- The generation counter, the lock and the instances agree: a `replace` that holds the lock
works on the generation in force, and that generation has no instance before it is announced,
nor after a `Stop`. -/
structure Consistent (s : Generations) : Prop where
  fresh : ∀ g, s.gen < g → s.nodes g = none
  lock : ∀ (c : ℕ) p g, s.calls[c]? = some p → p.holdsFor = some g →
    s.mu = some c ∧ g = s.gen ∧ s.latest = .replace (announced p)
  tearing : ∀ (c : ℕ) g cfg, s.calls[c]? = some (Call.tearing g cfg) → s.nodes g = none
  launching : ∀ (c : ℕ) p g, s.calls[c]? = some p → launches p = some g →
    ∃ n, s.nodes g = some n ∧ n.bringUp = .launching
  watched : ∀ g n, s.nodes g = some n → n.Watched
  served : ∀ g, Served s g → s.nodes g ≠ none
  unlaunched : s.latest ≠ .replace true → s.nodes s.gen = none
  silent : s.latest = .replace false → ∃ (c : ℕ) (cfg : _),
    s.calls[c]? = some (Call.announcing s.gen cfg)

variable {s : Generations} in
/-- A generation with an instance has been announced, while it is in force. -/
lemma Consistent.latest_of_node (h : Consistent s) {gen : ℕ} {n : Node}
    (hn : s.nodes gen = some n) (hg : gen = s.gen) : s.latest = .replace true := by
  by_contra hl
  rw [hg, h.unlaunched hl] at hn
  cases hn

lemma consistent_init (cfg : NetworkConfig) : Consistent (init cfg) where
  fresh _ _ := rfl
  lock _ _ _ h := by simp [init] at h
  tearing _ _ _ h := by simp [init] at h
  launching _ _ _ h := by simp [init] at h
  watched _ _ h := by cases h
  served _ h := by
    rcases h with h | ⟨c, p, h, -⟩
    · cases h
    · simp [init] at h
  unlaunched _ := rfl
  silent h := by cases h

/-! ### Instances that move on -/

/-- What a step makes of an instance. -/
structure Moved (n n' : Node) : Prop where
  watched : n.Watched → n'.Watched
  launching : n.Watched → n.bringUp = .launching → n'.bringUp = .launching

/-- No instance comes or goes, and each of them moves on. -/
def Moves (s t : Generations) : Prop := ∀ g, Option.Rel Moved (s.nodes g) (t.nodes g)

section Moves

variable {s t : Generations}

lemma Moved.refl (n : Node) : Moved n n := ⟨id, fun _ => id⟩

lemma Moves.of_eq (h : t.nodes = s.nodes) : Moves s t := by
  intro g
  rw [h]
  cases s.nodes g with
  | none => exact .none
  | some n => exact .some (.refl n)

lemma setNode_self (s : Generations) (g : ℕ) (n : Node) : (s.setNode g n).nodes g = some n :=
  Function.update_self ..

lemma setNode_of_ne (s : Generations) {g g' : ℕ} (hg : g' ≠ g) (n : Node) :
    (s.setNode g n).nodes g' = s.nodes g' :=
  Function.update_of_ne hg ..

lemma setNode_ne_none {g g' : ℕ} {n : Node} (h : s.nodes g' ≠ none) :
    (s.setNode g n).nodes g' ≠ none := by
  by_cases hg : g' = g
  · subst hg
    simp [setNode_self]
  · rwa [setNode_of_ne s hg]

lemma of_setNode {g g' : ℕ} {n m : Node} (h : (s.setNode g n).nodes g' = some m) :
    (g' = g ∧ m = n) ∨ s.nodes g' = some m := by
  by_cases hg : g' = g
  · subst hg
    rw [setNode_self] at h
    exact .inl ⟨rfl, (Option.some.inj h).symm⟩
  · rw [setNode_of_ne s hg] at h
    exact .inr h

lemma Moves.setNode {g : ℕ} {n n' : Node} (hn : s.nodes g = some n) (h : Moved n n') :
    Moves s (s.setNode g n') := by
  intro g'
  by_cases hg : g' = g
  · subst hg
    rw [setNode_self, hn]
    exact .some h
  · rw [setNode_of_ne s hg]
    exact Moves.of_eq rfl g'

lemma Moves.cancel (s : Generations) (inst : Option ℕ) : Moves s (s.cancel inst) := by
  intro g
  change Option.Rel Moved (s.nodes g) (if inst = some g then _ else s.nodes g)
  split_ifs
  · cases s.nodes g with
    | none => exact .none
    | some n => exact .some ⟨id, fun _ => id⟩
  · exact Moves.of_eq rfl g

lemma of_cancel {inst : Option ℕ} {g : ℕ} {n : Node} (h : (s.cancel inst).nodes g = some n) :
    ∃ m, s.nodes g = some m ∧ n.bringUp = m.bringUp := by
  simp only [Generations.cancel] at h
  split_ifs at h
  · obtain ⟨m, hm, rfl⟩ := Option.map_eq_some_iff.mp h
    exact ⟨m, hm, rfl⟩
  · exact ⟨n, h, rfl⟩

lemma Moves.eq_none (h : Moves s t) {g : ℕ} (hg : s.nodes g = none) : t.nodes g = none := by
  have := h g
  rw [hg] at this
  cases ht : t.nodes g with
  | none => rfl
  | some n =>
      rw [ht] at this
      cases this

lemma Moves.ne_none (h : Moves s t) {g : ℕ} (hg : s.nodes g ≠ none) : t.nodes g ≠ none := by
  have := h g
  intro ht
  rw [ht] at this
  cases hs : s.nodes g with
  | none => exact hg hs
  | some n =>
      rw [hs] at this
      cases this

lemma Moves.eq_some (h : Moves s t) {g : ℕ} {n : Node} (hg : s.nodes g = some n) :
    ∃ n', t.nodes g = some n' ∧ Moved n n' := by
  have := h g
  rw [hg] at this
  cases ht : t.nodes g with
  | none =>
      rw [ht] at this
      cases this
  | some n' =>
      rw [ht] at this
      cases this with
      | some hm => exact ⟨n', rfl, hm⟩

lemma Moves.watched (h : Moves s t) (hs : ∀ g n, s.nodes g = some n → n.Watched) :
    ∀ g n, t.nodes g = some n → n.Watched := by
  intro g n hn
  cases hg : s.nodes g with
  | none => cases (h.eq_none hg).symm.trans hn
  | some m =>
      obtain ⟨n', hn', hm⟩ := h.eq_some hg
      cases hn'.symm.trans hn
      exact hm.watched (hs g m hg)

end Moves

/-! ### Calls that move on -/

section Keep

variable {s t : Generations} {c : ℕ} {p : Call}

lemma holdsFor_of_launches {g : ℕ} (h : launches p = some g) : p.holdsFor = some g := by
  cases p <;> first | exact h | cases h

/-- A step that leaves the lock and the generations alone keeps them in agreement. -/
lemma Consistent.keep (h : Consistent s) (hgen : t.gen = s.gen) (hmu : t.mu = s.mu)
    (hlatest : t.latest = s.latest) (hnodes : Moves s t) (hserved : ∀ g, Served t g → Served s g)
    (hcalls : ∀ (c : ℕ) p g, t.calls[c]? = some p → p.holdsFor = some g →
      s.calls[c]? = some p)
    (hkept : ∀ (c : ℕ) p g, s.calls[c]? = some p → p.holdsFor = some g →
      t.calls[c]? = some p) : Consistent t where
  fresh g hg := hnodes.eq_none (h.fresh g (hgen ▸ hg))
  lock c p g hp hg := by
    rw [hmu, hgen, hlatest]
    exact h.lock c p g (hcalls c p g hp hg) hg
  tearing c g cfg hp := hnodes.eq_none (h.tearing c g cfg (hcalls c _ g hp rfl))
  launching c p g hp hg := by
    obtain ⟨n, hn, hb⟩ := h.launching c p g (hcalls c p g hp (holdsFor_of_launches hg)) hg
    obtain ⟨n', hn', hm⟩ := hnodes.eq_some hn
    exact ⟨n', hn', hm.launching (h.watched g n hn) hb⟩
  watched := hnodes.watched h.watched
  served g hg := hnodes.ne_none (h.served g (hserved g hg))
  unlaunched hl := by
    rw [hgen]
    exact hnodes.eq_none (h.unlaunched (hlatest ▸ hl))
  silent hl := by
    obtain ⟨c, cfg, hc⟩ := h.silent (hlatest ▸ hl)
    rw [hgen]
    exact ⟨c, cfg, hkept c _ _ hc rfl⟩

lemma getElem?_setCall {d : ℕ} {p' q : Call} (hq : (s.calls.set c p')[d]? = some q) :
    (d = c ∧ q = p') ∨ (d ≠ c ∧ s.calls[d]? = some q) := by
  rw [List.getElem?_set] at hq
  split_ifs at hq with h1 h2
  · exact .inl ⟨h1.symm, (Option.some.inj hq).symm⟩
  · exact .inr ⟨fun hd => h1 hd.symm, hq⟩

lemma getElem?_setCall_self {p' : Call} (hc : s.calls[c]? = some p) :
    (s.calls.set c p')[c]? = some p' := by
  rw [List.getElem?_set_self]
  exact (List.getElem?_eq_some_iff.mp hc).1

/-- A call that moves on holds on to no instance that it or the edge did not hold before. -/
lemma served_set {p' : Call} {g : ℕ} (h : Served t g) (hc : s.calls[c]? = some p)
    (hcalls : t.calls = s.calls.set c p') (hinst : ∀ g, t.inst = some g → s.inst = some g)
    (hp : ∀ g, serves p' = some g → serves p = some g ∨ s.inst = some g) : Served s g := by
  rcases h with h | ⟨d, q, hd, hq⟩
  · exact .inl (hinst g h)
  · rw [hcalls] at hd
    rcases getElem?_setCall hd with ⟨-, rfl⟩ | ⟨-, hd⟩
    · exact (hp g hq).symm.imp id fun hp => ⟨c, p, hc, hp⟩
    · exact .inr ⟨d, q, hd, hq⟩

/-- A call that does not hold the lock moves on without taking it. -/
lemma Consistent.keep_set (h : Consistent s) {p' : Call} (hc : s.calls[c]? = some p)
    (hp : p.holdsFor = none) (hp' : p'.holdsFor = none) (hgen : t.gen = s.gen)
    (hmu : t.mu = s.mu) (hlatest : t.latest = s.latest) (hinst : t.inst = s.inst)
    (hnodes : Moves s t) (hcalls : t.calls = s.calls.set c p')
    (hserves : ∀ g, serves p' = some g → serves p = some g ∨ s.inst = some g) :
    Consistent t := by
  have hserved (g : ℕ) (hg : Served t g) : Served s g :=
    served_set hg hc hcalls (fun _ hi => hinst ▸ hi) hserves
  refine h.keep hgen hmu hlatest hnodes hserved (fun d q g hq hg => ?_) fun d q g hq hg => ?_
  · rw [hcalls] at hq
    rcases getElem?_setCall hq with ⟨-, rfl⟩ | ⟨-, hq⟩
    · rw [hp'] at hg
      cases hg
    · exact hq
  · rw [hcalls]
    by_cases hd : d = c
    · subst hd
      rw [hc] at hq
      cases hq
      rw [hp] at hg
      cases hg
    · rw [List.getElem?_set_ne (Ne.symm hd)]
      exact hq

/-- Only the call that holds the lock is one that does. -/
lemma Consistent.holder (h : Consistent s) {d g g' : ℕ} {q : Call} (hc : s.calls[c]? = some p)
    (hp : p.holdsFor = some g) (hd : s.calls[d]? = some q) (hq : q.holdsFor = some g') :
    d = c := by
  have h1 := (h.lock c p g hc hp).1
  have h2 := (h.lock d q g' hd hq).1
  exact Option.some.inj (h2.symm.trans h1)

/-- The call that holds the lock moves on: the others hold nothing. -/
lemma Consistent.keep_holder (h : Consistent s) {g : ℕ} {p' : Call}
    (hc : s.calls[c]? = some p) (hp : p.holdsFor = some g) (hgen : t.gen = s.gen)
    (hfresh : ∀ g', s.gen < g' → t.nodes g' = none) (hcalls : t.calls = s.calls.set c p')
    (hlock : ∀ g', p'.holdsFor = some g' →
      t.mu = some c ∧ g' = s.gen ∧ t.latest = .replace (announced p'))
    (htearing : ∀ g' cfg, p' = .tearing g' cfg → t.nodes g' = none)
    (hlaunching : ∀ g', launches p' = some g' →
      ∃ n, t.nodes g' = some n ∧ n.bringUp = .launching)
    (hwatched : ∀ g' n, t.nodes g' = some n → n.Watched)
    (hserved : ∀ g', Served t g' → t.nodes g' ≠ none)
    (hlatest : t.latest = .replace true) : Consistent t := by
  have hself (d : ℕ) (q : Call) (g' : ℕ) (hq : t.calls[d]? = some q)
      (hg : q.holdsFor = some g') : d = c ∧ q = p' := by
    rw [hcalls] at hq
    rcases getElem?_setCall hq with hd | ⟨hd, hq⟩
    · exact hd
    · exact absurd (h.holder hc hp hq hg) hd
  refine ⟨fun g' hg' => hfresh g' (hgen ▸ hg'), fun d q g' hq hg => ?_, fun d g' cfg hq => ?_,
    fun d q g' hq hg => ?_, hwatched, hserved, fun hl => absurd hlatest hl,
    fun hl => by rw [hlatest] at hl; cases hl⟩
  · obtain ⟨rfl, rfl⟩ := hself d q g' hq hg
    rw [hgen]
    exact hlock g' hg
  · obtain ⟨rfl, hq'⟩ := hself d _ g' hq rfl
    exact htearing g' cfg hq'.symm
  · obtain ⟨rfl, rfl⟩ := hself d q g' hq (holdsFor_of_launches hg)
    exact hlaunching g' hg

end Keep

/-! ### A step keeps the edge consistent -/

section Step

variable {s t : Generations} {c : ℕ} {p : Call} {i : Input}

/-- Where a call stands as it arrives. -/
def isNew : Call → Bool
  | .reading | .entering _ | .stopping | .loggingIn | .loggingOut | .over => true
  | _ => false

lemma serves_of_isNew {p : Call} (h : isNew p = true) : serves p = none := by
  cases p <;> first | rfl | cases h

lemma holdsFor_of_isNew {p : Call} (h : isNew p = true) : p.holdsFor = none := by
  cases p <;> first | rfl | cases h

/-- The arrival of a call adds it, and changes nothing else that is not recorded only. -/
lemma arrive_eq (go : GoLibrary) (s : Generations) (k : CallKind) : ∃ p so, isNew p = true ∧
    s.arrive go k = { s with calls := s.calls ++ [p], signedOut := so } := by
  cases k with
  | apply cfg =>
      cases hv : validate go cfg.applyDefaults with
      | nil => exact ⟨.entering cfg.applyDefaults, s.signedOut, rfl, by simp [arrive, hv]⟩
      | cons e errs => exact ⟨.over, s.signedOut, rfl, by simp [arrive, hv]⟩
  | start => exact ⟨_, _, rfl, rfl⟩
  | restart => exact ⟨_, _, rfl, rfl⟩
  | stop => exact ⟨_, _, rfl, rfl⟩
  | login => exact ⟨_, _, rfl, rfl⟩
  | logout => exact ⟨_, _, rfl, rfl⟩

lemma getElem?_arrive {d : ℕ} {p q : Call} (hd : (s.calls ++ [p])[d]? = some q) :
    s.calls[d]? = some q ∨ q = p := by
  rw [List.getElem?_append] at hd
  split_ifs at hd with hlt
  · exact .inl hd
  · exact .inr (List.mem_singleton.mp (List.mem_of_getElem? hd))

lemma consistent_arrive (go : GoLibrary) (h : Consistent s) (k : CallKind) :
    Consistent (s.arrive go k) := by
  obtain ⟨p, so, hp, ht⟩ := arrive_eq go s k
  rw [ht]
  refine h.keep rfl rfl rfl (.of_eq rfl) (fun g hg => ?_) (fun d q g hq hg => ?_)
    fun d q g hq _ => ?_
  · rcases hg with hg | ⟨d, q, hd, hq⟩
    · exact .inl hg
    · refine .inr ⟨d, q, (getElem?_arrive hd).resolve_right ?_, hq⟩
      rintro rfl
      rw [serves_of_isNew hp] at hq
      cases hq
  · refine (getElem?_arrive hq).resolve_right ?_
    rintro rfl
    rw [holdsFor_of_isNew hp] at hg
    cases hg
  · exact (List.getElem?_append_left (List.getElem?_eq_some_iff.mp hq).1).trans hq

/-- A call that takes the lock to retire the generation in force: no other holds it. -/
lemma Consistent.retire (h : Consistent s) {p' : Call} (hmu : s.mu = none)
    (hgen : t.gen = s.gen + 1) (hnodes : t.nodes = s.nodes) (hcalls : t.calls = s.calls.set c p')
    (hp' : (p'.holdsFor = none ∧ t.latest = .stop) ∨ (t.mu = some c ∧ t.latest = .replace false ∧
      ∃ cfg, p' = .announcing (s.gen + 1) cfg)) (hc : s.calls[c]? = some p)
    (hserved : ∀ g, Served t g → Served s g) : Consistent t := by
  have hself (d : ℕ) (q : Call) (g : ℕ) (hq : t.calls[d]? = some q)
      (hg : q.holdsFor = some g) : d = c ∧ q = p' := by
    rw [hcalls] at hq
    rcases getElem?_setCall hq with hd | ⟨-, hq⟩
    · exact hd
    · have := (h.lock d q g hq hg).1
      rw [hmu] at this
      cases this
  have hno (d : ℕ) (q : Call) (g : ℕ) (hq : t.calls[d]? = some q) (hg : q.holdsFor = some g) :
      ∃ cfg, q = .announcing (s.gen + 1) cfg := by
    obtain ⟨rfl, rfl⟩ := hself d q g hq hg
    rcases hp' with ⟨hp', -⟩ | ⟨-, -, hex⟩
    · rw [hp'] at hg
      cases hg
    · exact hex
  refine ⟨fun g hg => ?_, fun d q g hq hg => ?_, fun d g cfg hq => ?_,
    fun d q g hq hg => ?_, fun g n hn => h.watched g n (by rwa [hnodes] at hn),
    fun g hg => by rw [hnodes]; exact h.served g (hserved g hg), fun _ => ?_, fun hl => ?_⟩
  · rw [hnodes]
    exact h.fresh g (by omega)
  · obtain ⟨rfl, rfl⟩ := hself d q g hq hg
    rcases hp' with ⟨hp', -⟩ | ⟨hmu', hl, cfg, rfl⟩
    · rw [hp'] at hg
      cases hg
    · cases hg
      exact ⟨hmu', hgen.symm, hl⟩
  · obtain ⟨cfg', hq'⟩ := hno d _ g hq rfl
    cases hq'
  · obtain ⟨cfg', rfl⟩ := hno d q g hq (holdsFor_of_launches hg)
    cases hg
  · rw [hnodes, hgen]
    exact h.fresh _ (Nat.lt_succ_self _)
  · rcases hp' with ⟨-, hl'⟩ | ⟨-, -, cfg, rfl⟩
    · rw [hl'] at hl
      cases hl
    · refine ⟨c, cfg, ?_⟩
      rw [hcalls, hgen]
      exact getElem?_setCall_self hc

/-- The instance of a call that has yet to hand it over runs nothing. -/
lemma Consistent.launched (h : Consistent s) {g : ℕ} {n : Node} (hc : s.calls[c]? = some p)
    (hg : launches p = some g) (hn : s.nodes g = some n) :
    n.watch = .off ∧ n.bringUp = .launching := by
  obtain ⟨m, hm, hb⟩ := h.launching c p g hc hg
  cases hm.symm.trans hn
  refine ⟨?_, hb⟩
  by_contra hw
  cases hb.symm.trans (h.watched g n hn hw)

lemma consistent_replaceStep (h : Consistent s) (hc : s.calls[c]? = some p)
    (hstep : s.replaceStep c p i = some t) : Consistent t := by
  cases p <;> cases i <;> try cases hstep
  case reading.go =>
      rw [replaceStep] at hstep
      split_ifs at hstep
      cases hstep
      exact h.keep_set hc rfl rfl rfl rfl rfl rfl (.of_eq rfl) rfl (by simp [serves])
  case entering.go cfg =>
      rw [replaceStep] at hstep
      split_ifs at hstep with hmu
      cases hstep
      exact h.retire hmu rfl rfl rfl (.inr ⟨rfl, rfl, cfg, rfl⟩) hc
        fun g hg => served_set hg hc rfl (fun _ hi => hi) (by simp [serves])
  case announcing.go gen cfg =>
      obtain ⟨hmu, rfl, hl⟩ := h.lock c _ _ hc rfl
      obtain ⟨status, alone, trace, ht⟩ := s.publish_frame .replace s.gen .starting
      rw [ht]
      exact h.keep_holder hc rfl rfl (fun g hg => h.fresh g hg) rfl
        (fun g hg => ⟨hmu, (Option.some.inj hg).symm, rfl⟩)
        (fun g cfg' hg => by
          cases hg
          exact h.unlaunched (by rw [hl]; simp [announced]))
        (fun g hg => by cases hg) h.watched (fun g hg => h.served g
          (served_set hg hc rfl (fun _ hi => hi) (by simp [serves]))) rfl
  case tearing.go gen cfg =>
      obtain ⟨hmu, rfl, hl⟩ := h.lock c _ _ hc rfl
      have hcancel := Moves.cancel s s.inst
      refine h.keep_holder hc rfl rfl (fun g hg => ?_) rfl
        (fun g hg => ⟨hmu, (Option.some.inj hg).symm, hl⟩) (fun g cfg' hg => by cases hg)
        (fun g hg => ?_) (fun g n hn => ?_) (fun g hg => setNode_ne_none (hcancel.ne_none
          (h.served g (served_set hg hc rfl (fun _ hi => by cases hi) (by simp [serves]))))) hl
      · have hne : g ≠ s.gen := by omega
        exact (setNode_of_ne _ hne _).trans (hcancel.eq_none (h.fresh g hg))
      · cases hg
        exact ⟨.launch cfg, setNode_self .., rfl⟩
      · have hset : ((s.cancel s.inst).setNode s.gen (.launch cfg)).nodes g = some n := hn
        rcases of_setNode hset with ⟨-, rfl⟩ | hn
        · exact Node.watched_launch cfg
        · exact hcancel.watched h.watched g n hn
  case launching.go gen =>
      obtain ⟨n, hn, rfl⟩ := Option.map_eq_some_iff.mp hstep
      obtain ⟨-, rfl, hl⟩ := h.lock c _ _ hc rfl
      obtain ⟨hoff, hold⟩ := h.launched hc rfl hn
      refine h.keep_holder hc rfl rfl (fun g hg => ?_) rfl (fun g hg => by cases hg)
        (fun g cfg hg => by cases hg) (fun g hg => by cases hg) (fun g n' hn' => ?_)
        (fun g hg => setNode_ne_none ?_) hl
      · exact (setNode_of_ne s (by omega) _).trans (h.fresh g hg)
      · have hset : (s.setNode s.gen { n with bringUp := .begin }).nodes g = some n' := hn'
        rcases of_setNode hset with ⟨-, rfl⟩ | hn'
        · exact fun hw => absurd hoff hw
        · exact h.watched g n' hn'
      · rcases hg with hg | ⟨d, q, hd, hq⟩
        · rw [← Option.some.inj hg, hn]
          simp
        · rcases getElem?_setCall hd with ⟨-, rfl⟩ | ⟨-, hd⟩
          · cases hq
          · exact h.served g (.inr ⟨d, q, hd, hq⟩)
  case launching.fail gen err =>
      obtain ⟨hmu, rfl, hl⟩ := h.lock c _ _ hc rfl
      exact h.keep_holder hc rfl rfl (fun g hg => h.fresh g hg) rfl
        (fun g hg => ⟨hmu, (Option.some.inj hg).symm, hl⟩) (fun g cfg hg => by cases hg)
        (fun g hg => h.launching c _ g hc hg) h.watched (fun g hg => h.served g
          (served_set hg hc rfl (fun _ hi => hi) (by simp [serves]))) hl
  case reporting.go gen err =>
      obtain ⟨n, hn, rfl⟩ := Option.map_eq_some_iff.mp hstep
      obtain ⟨-, rfl, hl⟩ := h.lock c _ _ hc rfl
      obtain ⟨hoff, hold⟩ := h.launched hc rfl hn
      obtain ⟨status, alone, trace, ht⟩ := (s.setNode s.gen { n with bringUp := .failed }).publish_frame
        .replace s.gen (.error err.code err.message)
      rw [ht]
      refine h.keep_holder hc rfl rfl (fun g hg => ?_) rfl (fun g hg => by cases hg)
        (fun g cfg hg => by cases hg) (fun g hg => by cases hg) (fun g n' hn' => ?_)
        (fun g hg => setNode_ne_none (h.served g
          (served_set hg hc rfl (fun _ hi => hi) (by simp [serves])))) hl
      · exact (setNode_of_ne s (by omega) _).trans (h.fresh g hg)
      · have hset : (s.setNode s.gen { n with bringUp := .failed }).nodes g = some n' := hn'
        rcases of_setNode hset with ⟨-, rfl⟩ | hn'
        · exact fun hw => absurd hoff hw
        · exact h.watched g n' hn'

lemma consistent_stopStep (h : Consistent s) (hc : s.calls[c]? = some p)
    (hstep : s.stopStep c p i = some t) : Consistent t := by
  cases p <;> cases i <;> try cases hstep
  case stopping.go =>
      rw [stopStep] at hstep
      split_ifs at hstep with hmu
      cases hstep
      exact h.retire hmu rfl rfl rfl (.inl ⟨rfl, rfl⟩) hc
        fun g hg => served_set hg hc rfl (fun _ hi => by cases hi) (by simp [serves])
  case tearingDown.go inst =>
      exact h.keep_set hc rfl rfl rfl rfl rfl rfl (Moves.cancel s inst) rfl (by simp [serves])
  case halting.go =>
      exact h.keep_set hc rfl rfl rfl rfl rfl rfl (.of_eq rfl) rfl (by simp [serves])

/-- What a step makes of an instance that lends its publisher's lock. -/
lemma moved_login (n : Node) (l : Option (Publisher × JsString)) : Moved n { n with login := l } :=
  ⟨id, fun _ => id⟩

lemma consistent_loginStep (h : Consistent s) (hc : s.calls[c]? = some p)
    (hstep : s.loginStep c p i = some t) : Consistent t := by
  have hset (p' : Call) (hp : p.holdsFor = none) (hp' : p'.holdsFor = none)
      (hs : serves p' = none) : Consistent (s.setCall c p') :=
    h.keep_set hc hp hp' rfl rfl rfl rfl (.of_eq rfl) rfl (by simp [hs])
  cases p <;> cases i <;> try cases hstep
  case loggingIn.go =>
      rw [loginStep] at hstep
      split_ifs at hstep
      cases hi : s.inst with
      | none =>
          simp only [hi] at hstep
          cases hstep
          exact hset _ rfl rfl rfl
      | some gen =>
          simp only [hi] at hstep
          cases hstep
          exact hset _ rfl rfl rfl
  case noting.go => exact hset _ rfl rfl rfl
  case asking.go => exact hset _ rfl rfl rfl
  case asking.fail => exact hset _ rfl rfl rfl
  case polling.go =>
      rw [loginStep] at hstep
      split_ifs at hstep
      · cases hstep
        exact h.keep_set hc rfl rfl rfl rfl rfl rfl (.of_eq rfl) rfl (by simp [serves])
      · cases hstep
        exact h
  case polling.answer gen before st waited =>
      cases st with
      | error text => cases hstep
      | ok st =>
          simp only [loginStep] at hstep
          split_ifs at hstep
          cases hstep
          exact hset _ rfl rfl rfl
  case polling.quit => exact hset _ rfl rfl rfl
  case offering.go gen url =>
      obtain ⟨n, hn, hstep⟩ := Option.bind_eq_some_iff.mp hstep
      obtain ⟨n', hoffer, hstep⟩ := Option.map_eq_some_iff.mp hstep
      obtain ⟨l, rfl⟩ := Node.offer_frame hoffer
      split_ifs at hstep
      · subst hstep
        exact h.keep_set hc rfl rfl rfl rfl rfl rfl (Moves.setNode hn (moved_login n l)) rfl
          (by simp [serves])
      · subst hstep
        exact h.keep_set hc rfl rfl rfl rfl rfl rfl (.of_eq rfl) rfl (by simp [serves])
  case committing.go gen =>
      obtain ⟨n, hn, hstep⟩ := Option.bind_eq_some_iff.mp hstep
      rcases hl : n.login with _ | ⟨_ | _ | _ | d, url⟩ <;> simp only [hl] at hstep <;>
        try cases hstep
      split_ifs at hstep
      cases hstep
      obtain ⟨status, alone, trace, ht⟩ := (s.setNode gen { n with login := none }).publish_frame
        (.node (.call c)) gen (.loginRequired url)
      rw [ht]
      exact h.keep_set hc rfl rfl rfl rfl rfl rfl (Moves.setNode hn (moved_login n none)) rfl
        (by simp [serves])

lemma consistent_logoutStep (h : Consistent s) (hc : s.calls[c]? = some p)
    (hstep : s.logoutStep c p i = some t) : Consistent t := by
  have hset (p' : Call) (hp : p.holdsFor = none) (hp' : p'.holdsFor = none)
      (hs : ∀ g, serves p' = some g → serves p = some g ∨ s.inst = some g) :
      Consistent (s.setCall c p') :=
    h.keep_set hc hp hp' rfl rfl rfl rfl (.of_eq rfl) rfl hs
  cases p <;> cases i <;> try cases hstep
  case loggingOut.go =>
      rw [logoutStep] at hstep
      split_ifs at hstep
      cases hi : s.inst with
      | none =>
          simp only [hi] at hstep
          cases hstep
          exact hset _ rfl rfl (by simp [serves])
      | some gen =>
          simp only [hi] at hstep
          cases hstep
          exact hset _ rfl rfl (by simp [serves, hi])
  case signingOut.go => exact hset _ rfl rfl (by simp [serves])
  case signingOut.fail => exact hset _ rfl rfl (by simp [serves])
  case parking.go =>
      exact h.keep_set hc rfl rfl rfl rfl rfl rfl (.of_eq rfl) rfl (by simp [serves])

lemma consistent_callStep (h : Consistent s) (hc : s.calls[c]? = some p)
    (hstep : s.callStep c p i = some t) : Consistent t := by
  cases p <;> first
    | exact consistent_replaceStep h hc hstep
    | exact consistent_stopStep h hc hstep
    | exact consistent_loginStep h hc hstep
    | exact consistent_logoutStep h hc hstep
    | cases hstep

lemma consistent_nodeStep (h : Consistent s) {gen : ℕ} {ev : Node.Event}
    (hstep : s.nodeStep gen ev = some t) : Consistent t := by
  obtain ⟨n, n', act, who, so, hn, hns, -, -, rfl⟩ := nodeStep_cases hstep
  have hw := h.watched gen n hn
  have hmoved : Moved n n' :=
    ⟨fun _ => (Node.effect_of_step hw hns).2, fun _ hb => Node.launching_of_step hw hns hb⟩
  obtain ⟨status, alone, trace, ht⟩ := (s.setNode gen n').perform_frame (.node who) gen act
  rw [ht]
  exact h.keep rfl rfl rfl (Moves.setNode hn hmoved) (fun _ hg => hg) (fun _ _ _ hq _ => hq)
    fun _ _ _ hq _ => hq

/-- **The edge stays consistent** under every step of its calls and its generations. -/
theorem consistent_step (h : Consistent s) {a : Action} (hstep : s.step go a = some t) :
    Consistent t := by
  cases a with
  | arrive k =>
      cases hstep
      exact consistent_arrive go h k
  | call c i =>
      obtain ⟨p, hc, hstep⟩ := Option.bind_eq_some_iff.mp hstep
      exact consistent_callStep h hc hstep
  | node gen ev => exact consistent_nodeStep h hstep

end Step

end Generations

end LocalCast.Edge
