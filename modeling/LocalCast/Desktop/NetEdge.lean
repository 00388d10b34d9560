import LocalCast.Foundations.Runs

/-!
`NetEdge` of the desktop application: the supervisor of the network edge's process.

* `Supervisor`, `supervisorStep`: the fields that decide what runs, the calls cut at their
  awaits, and the processes.
* `EdgeLaw`: one process at most, and after a stop neither a process nor a pending restart.
* `spawnsAlone`: a start that found its port is still wanted, and nothing else runs.
* `Supervised`: the invariant; `supervised_step` is what one step keeps.
* `one_child`: the law in every such run.
* `two_children`, `child_after_stop`: two starts at once, and a stop that a start outlives.

The status, the control port, what the process writes and the delay of a restart are left out.
-/

namespace LocalCast.Desktop

open Runs

/-! ### The supervisor -/

/-- A process of the edge. The `exit` event comes after it has ended; without a code it was
ended by a signal. -/
inductive Process where
  | alive
  | dead
  | exited (code : Option ℤ)
deriving DecidableEq

/-- Who called `start`: the owner of the supervisor, or its restart timer. -/
inductive Origin where
  | owner | timer
deriving DecidableEq

/-- `#child`, `#restartTimer` and `#stopping`; the starts that await a free port, and for each
stop that waits the process it waits for; the processes; and whether a stop has resolved with
no start by the owner since. -/
structure Supervisor where
  child : Option ℕ
  restartTimer : Bool
  stopping : Bool
  starts : List Origin
  stops : List ℕ
  processes : ℕ → Option Process
  nextProcess : ℕ
  stopped : Bool

namespace Supervisor

def init : Supervisor where
  child := none
  restartTimer := false
  stopping := false
  starts := []
  stops := []
  processes := fun _ => none
  nextProcess := 0
  stopped := false

variable (s : Supervisor)

/-- `child.exitCode`. -/
def exitCode (p : ℕ) : Option ℤ :=
  match s.processes p with
  | some (.exited code) => code
  | _ => none

def running : Bool :=
  match s.child with
  | none => false
  | some p => (s.exitCode p).isNone

/-- `#scheduleRestart`; one timer at most is set. -/
def scheduleRestart : Supervisor := { s with restartTimer := true }

/-- `start()` has failed; the restart timer tries again. -/
def rejected : Origin → Supervisor
  | .owner => s
  | .timer => s.scheduleRestart

/-- `start()` up to its await; `found` is whether the binary exists. -/
def start (origin : Origin) (found : Bool) : Supervisor :=
  if s.running then s
  else
    let s := { s with stopping := false }
    if found then { s with starts := origin :: s.starts } else s.rejected origin

def spawn : Supervisor :=
  { s with
    child := some s.nextProcess
    processes := Function.update s.processes s.nextProcess (some .alive)
    nextProcess := s.nextProcess + 1 }

/-- The `exit` event of a process, and the stops that wait for it. -/
def onExit (p : ℕ) (code : Option ℤ) : Supervisor :=
  let s := { s with
    child := none
    processes := Function.update s.processes p (some (.exited code))
    stops := s.stops.filter (· ≠ p)
    stopped := s.stopped || s.stops.contains p }
  if s.stopping then s else s.scheduleRestart

/-- `stop()` up to its await; `SIGTERM` asks the process to end. -/
def stop : Supervisor :=
  let s := { s with stopping := true, restartTimer := false }
  match s.child with
  | none => { s with stopped := true }
  | some p => { s with stops := p :: s.stops }

/-- The process ends. -/
def kill (p : ℕ) : Supervisor :=
  if s.processes p = some .alive then
    { s with processes := Function.update s.processes p (some .dead) }
  else s

end Supervisor

inductive SupervisorAction where
  /-- The owner calls `start()` or `stop()`. -/
  | start (found : Bool)
  | stop
  /-- The restart timer fires. -/
  | fire (found : Bool)
  /-- A start finds a port and spawns the process, or one of both fails. -/
  | port (origin : Origin)
  | portFailed (origin : Origin)
  /-- A process ends, by itself or by a signal, and its `exit` event follows. -/
  | die (p : ℕ)
  | exit (p : ℕ) (code : Option ℤ)
  /-- A stop has waited five seconds: it sends `SIGKILL` and resolves. -/
  | timeout (p : ℕ)

def supervisorStep (s : Supervisor) : SupervisorAction → Option Supervisor
  | .start found => some ({ s with stopped := false }.start .owner found)
  | .stop => some s.stop
  | .fire found =>
      if s.restartTimer then some ({ s with restartTimer := false }.start .timer found) else none
  | .port origin =>
      if origin ∈ s.starts then some { s with starts := s.starts.erase origin }.spawn else none
  | .portFailed origin =>
      if origin ∈ s.starts then some ({ s with starts := s.starts.erase origin }.rejected origin)
      else none
  | .die p => if s.processes p = some .alive then some (s.kill p) else none
  | .exit p code => if s.processes p = some .dead then some (s.onExit p code) else none
  | .timeout p =>
      if p ∈ s.stops then some ({ s with stops := s.stops.erase p, stopped := true }.kill p)
      else none

/-! ### The law -/

/-- One process at most is alive, and once a stop has resolved, until the owner starts again,
none is and no restart is pending. -/
structure EdgeLaw (s : Supervisor) : Prop where
  single : ∀ p q, s.processes p = some .alive → s.processes q = some .alive → p = q
  quiet : s.stopped = true → (∀ p, s.processes p ≠ some .alive) ∧ s.restartTimer = false

/-- A start that found its port was not overtaken by a stop or by another start, and one by the
timer that failed was not overtaken by a stop. -/
def spawnsAlone (s : Supervisor) : SupervisorAction → Bool
  | .port _ => s.child = none && !s.stopping
  | .portFailed .timer => !s.stopping
  | _ => true

/-! ### The invariant -/

/-- The child on record is the process there is, a stop waits for it, and stopping leaves no
restart behind. -/
structure Supervised (s : Supervisor) : Prop where
  child : ∀ p, s.processes p = some .alive ∨ s.processes p = some .dead ↔ s.child = some p
  waiting : ∀ p ∈ s.stops, s.child = some p ∧ s.stopping = true
  timer : s.stopping = true → s.restartTimer = false
  stopped : s.stopped = true → s.stopping = true ∧ ∀ p, s.processes p ≠ some .alive

variable {s t : Supervisor} {a : SupervisorAction}

lemma Supervised.law (h : Supervised s) : EdgeLaw s where
  single p q hp hq :=
    Option.some.inj (((h.child p).mp (.inl hp)).symm.trans ((h.child q).mp (.inl hq)))
  quiet hstopped :=
    have hquiet := h.stopped hstopped
    ⟨hquiet.2, h.timer hquiet.1⟩

/-- The child on record is running. -/
lemma Supervised.running (h : Supervised s) : s.running = s.child.isSome := by
  rw [Supervisor.running]
  cases hc : s.child with
  | none => rfl
  | some p =>
      rcases (h.child p).mpr hc with hp | hp
      · simp [Supervisor.exitCode, hp]
      · simp [Supervisor.exitCode, hp]

/-- Where there is no child, nothing waits and no process is left. -/
lemma Supervised.idle (h : Supervised s) (hc : s.child = none) :
    s.stops = [] ∧ ∀ p, ¬ (s.processes p = some .alive ∨ s.processes p = some .dead) := by
  constructor
  · refine List.eq_nil_iff_forall_not_mem.mpr fun p hp => ?_
    cases hc.symm.trans (h.waiting p hp).1
  · intro p hp
    cases hc.symm.trans ((h.child p).mp hp)

/-- A state without a child that is not stopping. -/
lemma Supervised.going (h : Supervised s) (hc : s.child = none) (hchild : t.child = none)
    (hstops : t.stops = s.stops) (hprocesses : t.processes = s.processes)
    (hstopping : t.stopping = false) (hstopped : t.stopped = false) : Supervised t where
  child p := by rw [hprocesses, hchild, h.child, hc]
  waiting p hp := by
    rw [hstops, (h.idle hc).1] at hp
    cases hp
  timer hstop := absurd (hstopping.symm.trans hstop) (by simp)
  stopped hstop := absurd (hstopped.symm.trans hstop) (by simp)

/-- A start does nothing while there is a child, and is pending or has failed otherwise. -/
lemma supervised_start (h : Supervised s) (origin : Origin) (found : Bool)
    (hstopped : s.stopped = false) : Supervised (s.start origin found) := by
  rw [Supervisor.start]
  by_cases hrunning : s.running = true
  · rw [if_pos hrunning]
    exact h
  · have hc : s.child = none := by
      rw [h.running] at hrunning
      simpa using hrunning
    rw [if_neg hrunning]
    cases found with
    | true => exact h.going hc hc rfl rfl rfl hstopped
    | false =>
        cases origin with
        | owner => exact h.going hc hc rfl rfl rfl hstopped
        | timer => exact h.going hc hc rfl rfl rfl hstopped

lemma supervised_spawn (h : Supervised s) (hc : s.child = none) (hstopping : s.stopping = false) :
    Supervised s.spawn where
  child p := by
    simp only [Supervisor.spawn, Function.update_apply]
    split_ifs with hp
    · simp [hp]
    · exact iff_of_false ((h.idle hc).2 p) fun heq => hp (Option.some.inj heq).symm
  waiting p hp := by
    have hp : p ∈ s.stops := hp
    rw [(h.idle hc).1] at hp
    cases hp
  timer := h.timer
  stopped hstop := absurd (hstopping.symm.trans (h.stopped hstop).1) (by simp)

lemma supervised_exit (h : Supervised s) {p : ℕ} (hp : s.processes p = some .dead)
    (code : Option ℤ) : Supervised (s.onExit p code) := by
  have hc : s.child = some p := (h.child p).mp (.inr hp)
  have hgone (q : ℕ) : ¬ (Function.update s.processes p (some (.exited code)) q = some .alive ∨
      Function.update s.processes p (some (.exited code)) q = some .dead) := by
    rw [Function.update_apply]
    split_ifs with hq
    · simp
    · intro hq'
      exact hq (Option.some.inj (((h.child q).mp hq').symm.trans hc))
  have hwaits (q : ℕ) (hq : q ∈ s.stops) : q = p :=
    Option.some.inj ((h.waiting q hq).1.symm.trans hc)
  have hnone (q : ℕ) : q ∉ s.stops.filter (· ≠ p) := by
    intro hq
    obtain ⟨hq, hne⟩ := List.mem_filter.mp hq
    simp [hwaits q hq] at hne
  have hstop : (s.stopped || s.stops.contains p) = true → s.stopping = true := by
    intro hor
    rcases Bool.or_eq_true_iff.mp hor with hs | hs
    · exact (h.stopped hs).1
    · exact (h.waiting p (List.contains_iff_mem.mp hs)).2
  have hchild (q : ℕ) : (Function.update s.processes p (some (.exited code)) q = some .alive ∨
      Function.update s.processes p (some (.exited code)) q = some .dead) ↔
        (none : Option ℕ) = some q := iff_of_false (hgone q) (by simp)
  rw [Supervisor.onExit]
  dsimp only
  split_ifs with hstopping
  · exact ⟨hchild, fun q hq => absurd hq (hnone q), h.timer,
      fun _ => ⟨hstopping, fun q hq => hgone q (.inl hq)⟩⟩
  · exact ⟨hchild, fun q hq => absurd hq (hnone q), fun hs => absurd hs hstopping,
      fun hs => absurd (hstop hs) hstopping⟩

lemma supervised_stop (h : Supervised s) : Supervised s.stop := by
  cases hc : s.child with
  | none =>
      have hstop : s.stop =
          { s with stopping := true, restartTimer := false, stopped := true } := by
        simp [Supervisor.stop, hc]
      rw [hstop]
      refine ⟨h.child, fun p hp => ?_, fun _ => rfl,
        fun _ => ⟨rfl, fun p hp => (h.idle hc).2 p (.inl hp)⟩⟩
      have hp : p ∈ s.stops := hp
      rw [(h.idle hc).1] at hp
      cases hp
  | some p =>
      have hstop : s.stop =
          { s with stopping := true, restartTimer := false, stops := p :: s.stops } := by
        simp [Supervisor.stop, hc]
      rw [hstop]
      refine ⟨h.child, fun q hq => ?_, fun _ => rfl, fun hs => ⟨rfl, (h.stopped hs).2⟩⟩
      rcases List.mem_cons.mp hq with rfl | hq
      · exact ⟨hc, rfl⟩
      · exact ⟨(h.waiting q hq).1, rfl⟩

/-- The process ends, and its `exit` event is still to come. -/
lemma child_kill (h : Supervised s) {p : ℕ} (hp : s.processes p = some .alive) (q : ℕ) :
    Function.update s.processes p (some .dead) q = some .alive ∨
      Function.update s.processes p (some .dead) q = some .dead ↔ s.child = some q := by
  rw [Function.update_apply]
  split_ifs with hq
  · subst hq
    simpa using (h.child q).mp (.inl hp)
  · exact h.child q

lemma supervised_die (h : Supervised s) (p : ℕ) : Supervised (s.kill p) := by
  rw [Supervisor.kill]
  split_ifs with hp
  · exact ⟨child_kill h hp, h.waiting, h.timer, fun hs => absurd hp ((h.stopped hs).2 p)⟩
  · exact h

/-- A stop that has waited long enough leaves no process. -/
lemma supervised_timeout (h : Supervised s) {p : ℕ} (hp : p ∈ s.stops) :
    Supervised ({ s with stops := s.stops.erase p, stopped := true }.kill p) := by
  obtain ⟨hc, hstopping⟩ := h.waiting p hp
  have honly (q : ℕ) (hq : s.processes q = some .alive) : q = p :=
    Option.some.inj (((h.child q).mp (.inl hq)).symm.trans hc)
  have hwaiting (q : ℕ) (hq : q ∈ s.stops.erase p) : s.child = some q ∧ s.stopping = true :=
    h.waiting q (List.mem_of_mem_erase hq)
  rw [Supervisor.kill]
  split_ifs with halive
  · refine ⟨child_kill h halive, hwaiting, h.timer, fun _ => ⟨hstopping, fun q hq => ?_⟩⟩
    simp only [Function.update_apply] at hq
    by_cases hqp : q = p
    · simp [hqp] at hq
    · rw [if_neg hqp] at hq
      exact hqp (honly q hq)
  · refine ⟨h.child, hwaiting, h.timer, fun _ => ⟨hstopping, fun q hq => ?_⟩⟩
    obtain rfl := honly q hq
    exact halive hq

/-- What one step keeps. -/
lemma supervised_step (h : Supervised s) (hguard : spawnsAlone s a = true)
    (hstep : supervisorStep s a = some t) : Supervised t := by
  cases a with
  | start found =>
      cases hstep
      have h' : Supervised { s with stopped := false } :=
        ⟨h.child, h.waiting, h.timer, fun hs => nomatch hs⟩
      exact supervised_start h' .owner found rfl
  | stop =>
      cases hstep
      exact supervised_stop h
  | fire found =>
      simp only [supervisorStep] at hstep
      split_ifs at hstep with htimer
      cases hstep
      have hgoing : s.stopped = false := by
        by_contra hs
        have hquiet := h.timer (h.stopped (by simpa using hs)).1
        simp [htimer] at hquiet
      have h' : Supervised { s with restartTimer := false } :=
        ⟨h.child, h.waiting, fun _ => rfl, h.stopped⟩
      exact supervised_start h' .timer found hgoing
  | port origin =>
      simp only [supervisorStep] at hstep
      split_ifs at hstep
      cases hstep
      simp only [spawnsAlone, Bool.and_eq_true, decide_eq_true_eq, Bool.not_eq_true'] at hguard
      have h' : Supervised { s with starts := s.starts.erase origin } :=
        ⟨h.child, h.waiting, h.timer, h.stopped⟩
      exact supervised_spawn h' hguard.1 hguard.2
  | portFailed origin =>
      simp only [supervisorStep] at hstep
      split_ifs at hstep
      cases hstep
      cases origin with
      | owner => exact ⟨h.child, h.waiting, h.timer, h.stopped⟩
      | timer =>
          have hgoing : s.stopping = false := by simpa [spawnsAlone] using hguard
          exact ⟨h.child, h.waiting, fun hs => absurd (hgoing.symm.trans hs) (by simp),
            h.stopped⟩
  | die p =>
      simp only [supervisorStep] at hstep
      split_ifs at hstep
      cases hstep
      exact supervised_die h p
  | exit p code =>
      simp only [supervisorStep] at hstep
      split_ifs at hstep with hp
      cases hstep
      exact supervised_exit h hp code
  | timeout p =>
      simp only [supervisorStep] at hstep
      split_ifs at hstep with hp
      cases hstep
      exact supervised_timeout h hp

lemma supervised_init : Supervised .init where
  child _ := by simp [Supervisor.init]
  waiting _ hp := nomatch hp
  timer _ := rfl
  stopped hs := nomatch hs

/-- **One network edge, and none after a stop**, in every run in which a start that found its
port was not overtaken. -/
theorem one_child {as : List SupervisorAction}
    (h : Run (Guarded (fun s a => spawnsAlone s a) supervisorStep) .init as s) : EdgeLaw s :=
  have hs : Supervised s := h.invariant (fun _ _ _ hs hstep => supervised_step hs hstep.1 hstep.2)
    supervised_init
  hs.law

/-! ### Concrete runs -/

/-- The edge crashes, is restarted, and is stopped. -/
theorem one_child_restarted : ∃ s,
    Run (Guarded (fun s a => spawnsAlone s a) supervisorStep) .init
      [.start true, .port .owner, .die 0, .exit 0 (some 1), .fire true, .port .timer, .stop,
        .timeout 1] s ∧
    (s.stopped && s.nextProcess = 2) = true ∧ EdgeLaw s := by
  obtain ⟨s, hrun, hs⟩ := exists_guarded_run_of_exec (fun s a => spawnsAlone s a) supervisorStep
    .init [.start true, .port .owner, .die 0, .exit 0 (some 1), .fire true, .port .timer, .stop,
      .timeout 1] (fun s => s.stopped && s.nextProcess = 2) (by decide)
  exact ⟨s, hrun, hs, one_child hrun⟩

/-- **Two processes**: the second start begins while the first awaits its port. -/
theorem two_children : ∃ s,
    Run (Steps supervisorStep) .init [.start true, .start true, .port .owner, .port .owner] s ∧
    s.processes 0 = some .alive ∧ s.processes 1 = some .alive ∧ ¬ EdgeLaw s := by
  obtain ⟨s, hrun, hs⟩ := exists_run_of_exec supervisorStep .init
    [.start true, .start true, .port .owner, .port .owner]
    (fun s => s.processes 0 = some .alive && s.processes 1 = some .alive) (by decide)
  simp only [Bool.and_eq_true, decide_eq_true_eq] at hs
  exact ⟨s, hrun, hs.1, hs.2, fun hlaw => absurd (hlaw.single 0 1 hs.1 hs.2) (by decide)⟩

/-- **A process after the stop**: the start awaits its port, and the stop sees no child. -/
theorem child_after_stop : ∃ s,
    Run (Steps supervisorStep) .init [.start true, .stop, .port .owner] s ∧
    s.stopped = true ∧ s.processes 0 = some .alive ∧ ¬ EdgeLaw s := by
  obtain ⟨s, hrun, hs⟩ := exists_run_of_exec supervisorStep .init [.start true, .stop, .port .owner]
    (fun s => s.stopped && s.processes 0 = some .alive) (by decide)
  simp only [Bool.and_eq_true, decide_eq_true_eq] at hs
  exact ⟨s, hrun, hs.1, hs.2, fun hlaw => (hlaw.quiet hs.1).1 0 hs.2⟩

end LocalCast.Desktop
