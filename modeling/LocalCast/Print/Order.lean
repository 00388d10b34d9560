import LocalCast.Foundations.PromiseChain
import LocalCast.Print.Finished

/-!
`modules/print/jobs.ts`: the promise chains of the printers, as `enqueue` extends them and `drain`
awaits them, whatever becomes of the runs.

* `Serving`, `Call`, `serve`: the queue with the keys of `chains` and the calls of `drain`. A run
  may throw at any point of it, also before it waits for anything.
* `Links`, `step_links`: what a step does to the links.
* `events_of_serve`: the queue moves as the promise chains of its printers.
* `print_order`: the runs of a printer begin in the order of their jobs and one at a time, a run
  that throws holds up nothing, and `drain` resolves when every job has finished.
-/

namespace LocalCast.Print

open JsString Contract Db Runs QueueState

/-! ### Calls -/

/-- A `drain`, which awaits all promises that it found in `chains`, or has resolved. A promise is
named by its job. -/
inductive Drain where
  | awaiting (chains : List JsString)
  | resolved
deriving DecidableEq

/-- The queue, the keys of `chains` in the order of the map, and the calls of `drain`. -/
structure Serving where
  queue : QueueState
  printers : List JsString
  drains : ℕ → Option Drain

namespace Serving

/-- A queue over what its table holds. -/
def start (jobs : Table PrintJobRow) (usedIds : List JsString) : Serving where
  queue := { QueueState.init with jobs := jobs, usedIds := usedIds }
  printers := []
  drains _ := none

/-- `[...this.chains.values()]`. -/
def values (s : Serving) : List JsString := s.printers.filterMap s.queue.chains

/-- The loop of a `drain`, at its head. -/
def loop (s : Serving) (n : ℕ) (chains : List JsString) : Serving :=
  { s with
    drains := Function.update s.drains n
      (some (if chains.length > 0 then .awaiting chains else .resolved)) }

end Serving

inductive Call where
  | act (a : Action)
  /-- A run rejects where it waits, or before it waits for anything. -/
  | threw (id : JsString) (error : String)
  | threwAtOnce (id : JsString) (error : String)
  | drain (n : ℕ)
  | dispose (n : ℕ)
  /-- `Promise.all(chains)` of a `drain` resolves. -/
  | woke (n : ℕ)

/-- The keys of a map after `set`. -/
def setKey (keys : List JsString) (key : JsString) : List JsString :=
  if key ∈ keys then keys else keys ++ [key]

/-- The link that an action puts into a chain. -/
def Action.appends : Action → Option (JsString × JsString)
  | .enqueue id input _ => some (input.printerId, id)
  | _ => none

/-- The run that an action begins. -/
def Action.begins : Action → Option JsString
  | .begin id _ => some id
  | _ => none

/-- The end of the process is the end of the queue, and `dispose` drains. -/
def Action.isServed : Action → Bool
  | .restart _ | .dispose => false
  | _ => true

def serve (cfg : QueueConfig) (s : Serving) : Call → Option Serving
  | .act a =>
      if a.isServed then
        (step cfg s.queue a).map fun queue =>
          { s with
            queue := queue
            printers := a.appends.elim s.printers fun link => setKey s.printers link.1 }
      else none
  | .threw id error =>
      match s.queue.tasks id with
      | some (.running _ _) => some { s with queue := s.queue.crash id error }
      | _ => none
  | .threwAtOnce id error =>
      match s.queue.tasks id with
      | some (.waiting _ previous) =>
          if ready s.queue previous then some { s with queue := s.queue.crash id error } else none
      | _ => none
  | .drain n => if s.drains n = none then some (s.loop n s.values) else none
  | .dispose n =>
      if s.drains n = none then
        some ({ s with queue := { s.queue with disposed := true } }.loop n s.values)
      else none
  | .woke n =>
      match s.drains n with
      | some (.awaiting chains) =>
          if chains.all fun id => s.queue.tasks id = some .settled then
            let next := s.values
            if next = chains then
              some { s with drains := Function.update s.drains n (some .resolved) }
            else some (s.loop n next)
          else none
      | _ => none

def Call.appends : Call → Option (JsString × JsString)
  | .act a => a.appends
  | _ => none

def Call.begins : Call → Option JsString
  | .act a => a.begins
  | .threwAtOnce id _ => some id
  | _ => none

/-- A run has begun and not ended. -/
def QueueState.isRunning (s : QueueState) (id : JsString) : Bool :=
  (s.tasks id).any fun task => match task with
    | .running _ _ => true
    | .waiting _ _ | .settled => false

/-- The jobs of a printer, in the order of their `enqueue`. -/
def enqueuedOn (printerId : JsString) (cs : List Call) : List JsString :=
  (cs.filterMap Call.appends).filterMap fun link =>
    if link.1 = printerId then some link.2 else none

/-- The jobs whose runs began, in that order. -/
def begun (cs : List Call) : List JsString := cs.filterMap Call.begins

/-- The jobs of a printer whose runs began, in that order. -/
def begunOn (printerId : JsString) (cs : List Call) : List JsString :=
  (begun cs).filter fun id => id ∈ enqueuedOn printerId cs

/-! ### What a step does to the links -/

def Task.link : Task → PromiseChain.Link JsString
  | .waiting _ previous => .waiting previous
  | .running _ _ => .running
  | .settled => .settled

/-- The promise chains of a queue. -/
def chainsOf (s : QueueState) : PromiseChain.Chains JsString JsString where
  link id := (s.tasks id).map Task.link
  last := s.chains

/-- A run goes on or is over. -/
def Task.isBegun : Task → Bool
  | .waiting _ _ => false
  | .running _ _ | .settled => true

/-- Whose run crashed in a step is settled. -/
def Caught (s t : QueueState) : Prop :=
  ∀ id error, Event.crashed id error ∈ t.log →
    Event.crashed id error ∈ s.log ∨ t.tasks id = some .settled

/-- What an action does to the links. -/
inductive Links (s : QueueState) (a : Action) (t : QueueState) : Prop
  | kept (happends : a.appends = none) (hbegins : a.begins = none) (htasks : t.tasks = s.tasks)
      (hchains : t.chains = s.chains)
  | enqueued {id printerName : JsString} {input : EnqueueInput} {now : Time}
      (ha : a = .enqueue id input now) (hfresh : id ∉ s.usedIds) (hids : id ∈ t.usedIds)
      (htasks : t.tasks = Function.update s.tasks id
        (some (.waiting printerName (s.chains input.printerId))))
      (hchains : t.chains = Function.update s.chains input.printerId (some id))
  | begun {id printerName : JsString} {now : Time} {previous : Option JsString} {task : Task}
      (ha : a = .begin id now) (htask : s.tasks id = some (.waiting printerName previous))
      (hready : ready s previous = true) (hbegun : task.isBegun = true)
      (htasks : t.tasks = Function.update s.tasks id (some task)) (hchains : t.chains = s.chains)
  | moved {id printerName : JsString} {pc : Pc} {task : Task} (happends : a.appends = none)
      (hbegins : a.begins = none) (htask : s.tasks id = some (.running printerName pc))
      (hbegun : task.isBegun = true) (htasks : t.tasks = Function.update s.tasks id (some task))
      (hchains : t.chains = s.chains)

section Step

variable {cfg : QueueConfig} {s t : QueueState} {a : Action} {id printerName : JsString}

/-- What a run does to the links, from wherever it goes on. -/
structure Moves (s : QueueState) (id : JsString) (t : QueueState) : Prop where
  tasks : ∃ task : Task, task.isBegun = true ∧
    t.tasks = Function.update s.tasks id (some task)
  chains : t.chains = s.chains
  caught : Caught s t

lemma moves_goOn {pc : Pc} : Moves s id (s.goOn id printerName pc) :=
  ⟨⟨_, rfl, rfl⟩, rfl, fun _ _ h => .inl h⟩

lemma moves_settle : Moves s id (s.settle id) := ⟨⟨_, rfl, rfl⟩, rfl, fun _ _ h => .inl h⟩

lemma moves_crash {error : String} : Moves s id (s.crash id error) := by
  refine ⟨⟨_, rfl, rfl⟩, rfl, fun id' error' h => ?_⟩
  rcases List.mem_cons.mp h with heq | h
  · obtain ⟨rfl, -⟩ := Event.crashed.inj heq
    exact .inr (Function.update_self ..)
  · exact .inl h

lemma moves_finishRun {status : PrintJobStatus} {message : Option String} {now : Time} :
    Moves s id (finishRun s id status message now) := by
  have hsame : (finish s id status message now).tasks = s.tasks ∧
      (finish s id status message now).chains = s.chains ∧
      (finish s id status message now).log = s.log := ⟨rfl, rfl, rfl⟩
  rw [finishRun]
  split_ifs
  · exact ⟨⟨_, rfl, rfl⟩, rfl, fun _ _ h => .inl h⟩
  · refine ⟨⟨_, rfl, rfl⟩, rfl, fun id' error' h => ?_⟩
    rcases List.mem_cons.mp h with heq | h
    · obtain ⟨rfl, -⟩ := Event.crashed.inj heq
      exact .inr (Function.update_self ..)
    · exact .inl h

lemma moves_begin {now : Time} : Moves s id (begin s id printerName now) := by
  rw [begin]
  cases s.jobs.get id with
  | none => exact moves_settle
  | some row =>
      simp only
      split_ifs
      · exact moves_goOn
      · exact moves_finishRun
      · exact moves_goOn

lemma moves_handOver {submission : Submission} {before : List ℤ} {now : Time} :
    Moves s id (handOver s id submission before now) := by
  rw [handOver]
  split_ifs
  · refine ⟨⟨_, rfl, rfl⟩, rfl, fun _ _ h => ?_⟩
    rcases List.mem_cons.mp h with heq | h
    · cases heq
    · exact .inl h
  · refine ⟨⟨_, rfl, rfl⟩, rfl, fun id' error' h => ?_⟩
    rcases List.mem_cons.mp h with heq | h
    · obtain ⟨rfl, -⟩ := Event.crashed.inj heq
      exact .inr (Function.update_self ..)
    · exact .inl h

lemma moves_join {submission : Submission} {submitted : Except String Unit}
    {windowsJobId : Option ℤ} {now later : Time} :
    Moves s id (join cfg s id submission submitted windowsJobId now later) := by
  cases submitted with
  | error e => exact moves_goOn
  | ok u =>
      cases windowsJobId with
      | none => exact moves_goOn
      | some w => exact ⟨⟨_, rfl, rfl⟩, rfl, fun _ _ h => .inl h⟩

lemma links_of_moves {pc : Pc} (happends : a.appends = none) (hbegins : a.begins = none)
    (htask : s.tasks id = some (.running printerName pc)) (h : Moves s id t) :
    Links s a t ∧ Caught s t := by
  obtain ⟨⟨task, hbegun, htasks⟩, hchains, hcaught⟩ := h
  exact ⟨.moved happends hbegins htask hbegun htasks hchains, hcaught⟩

lemma caught_of_log (h : t.log = s.log ∨
    ∃ e, t.log = e :: s.log ∧ ∀ id error, e ≠ .crashed id error) : Caught s t := by
  intro id error hmem
  rcases h with hlog | ⟨e, hlog, he⟩
  · exact .inl (hlog ▸ hmem)
  · rw [hlog] at hmem
    exact .inl ((List.mem_cons.mp hmem).resolve_left fun heq => he id error heq.symm)

lemma cancel_links {jobId deviceId : JsString} {now : Time} :
    Links s (.cancel jobId deviceId now) (cancel s jobId deviceId now) ∧
      Caught s (cancel s jobId deviceId now) := by
  have hkept {u : QueueState} {e : Event} (htasks : u.tasks = s.tasks)
      (hchains : u.chains = s.chains) (hlog : u.log = e :: s.log)
      (he : ∀ id error, e ≠ .crashed id error) :
      Links s (.cancel jobId deviceId now) u ∧ Caught s u :=
    ⟨.kept rfl rfl htasks hchains, caught_of_log (.inr ⟨e, hlog, he⟩)⟩
  rw [cancel]
  cases s.jobs.get jobId with
  | none => exact hkept rfl rfl rfl (by simp)
  | some row =>
      simp only
      by_cases hdevice : row.device_id ≠ deviceId
      · rw [if_pos hdevice]
        exact hkept rfl rfl rfl (by simp)
      · rw [if_neg hdevice]
        cases row.status with
        | cancelled | done | error | printing => exact hkept rfl rfl rfl (by simp)
        | queued => exact hkept rfl rfl rfl (by simp)

/-- **What a step does to the links**, and to the run that crashes in it. -/
theorem step_links (hserved : a.isServed = true) (h : step cfg s a = some t) :
    Links s a t ∧ Caught s t := by
  cases a with
  | enqueue id input now =>
      simp only [step, enqueue] at h
      split_ifs at h with hused
      obtain ⟨jobs, hjobs, rfl⟩ := Option.map_eq_some_iff.mp h
      exact ⟨.enqueued rfl hused List.mem_cons_self rfl rfl,
        caught_of_log (.inr ⟨_, rfl, by simp⟩)⟩
  | cancel jobId deviceId now =>
      obtain rfl := Option.some.inj h
      exact cancel_links
  | dispose => cases hserved
  | restart now => cases hserved
  | begin id now =>
      rw [step] at h
      split at h
      case h_2 => cases h
      case h_1 printerName previous htask =>
        split_ifs at h with hready
        obtain rfl := Option.some.inj h
        have hmoves : Moves s id (begin s id printerName now) := moves_begin
        obtain ⟨⟨task, hbegun, htasks⟩, hchains, hcaught⟩ := hmoves
        exact ⟨.begun rfl htask hready hbegun htasks hchains, hcaught⟩
  | copied id r =>
      simp only [step] at h
      split at h
      case h_1 htask =>
        obtain rfl := Option.some.inj h
        exact links_of_moves rfl rfl htask moves_goOn
      case h_2 htask =>
        obtain rfl := Option.some.inj h
        exact links_of_moves rfl rfl htask moves_goOn
      case h_3 => cases h
  | found id sumatra =>
      rw [step] at h
      split at h
      case h_2 => cases h
      case h_1 htask =>
        obtain rfl := Option.some.inj h
        exact links_of_moves rfl rfl htask moves_goOn
  | probed id support =>
      rw [step] at h
      split at h
      case h_2 => cases h
      case h_1 htask =>
        obtain rfl := Option.some.inj h
        exact links_of_moves rfl rfl htask moves_goOn
  | listed id r now =>
      simp only [step] at h
      split at h
      case h_1 htask =>
        obtain rfl := Option.some.inj h
        exact links_of_moves rfl rfl htask moves_handOver
      case h_2 htask =>
        obtain rfl := Option.some.inj h
        exact links_of_moves rfl rfl htask moves_crash
      case h_3 => cases h
  | submitted id r =>
      rw [step] at h
      split at h
      case h_2 => cases h
      case h_1 htask =>
        obtain rfl := Option.some.inj h
        exact links_of_moves rfl rfl htask moves_goOn
  | looked id r =>
      rw [step] at h
      split at h
      case h_2 => cases h
      case h_1 htask =>
        obtain rfl := Option.some.inj h
        exact links_of_moves rfl rfl htask moves_goOn
  | woke id now =>
      rw [step] at h
      split at h
      case h_1 htask =>
        obtain rfl := Option.some.inj h
        exact links_of_moves rfl rfl htask moves_goOn
      case h_2 htask =>
        obtain rfl := Option.some.inj h
        exact links_of_moves rfl rfl htask moves_goOn
      case h_3 => cases h
  | joined id now later =>
      rw [step] at h
      split at h
      case h_1 htask =>
        obtain rfl := Option.some.inj h
        exact links_of_moves rfl rfl htask moves_join
      case h_2 htask =>
        obtain rfl := Option.some.inj h
        exact links_of_moves rfl rfl htask moves_crash
      case h_3 => cases h
  | watched id r =>
      simp only [step] at h
      split at h
      case h_1 htask =>
        obtain rfl := Option.some.inj h
        exact links_of_moves rfl rfl htask moves_goOn
      case h_2 htask =>
        obtain rfl := Option.some.inj h
        exact links_of_moves rfl rfl htask moves_crash
      case h_3 => cases h
  | removed id =>
      rw [step] at h
      split at h
      case h_2 => cases h
      case h_1 htask =>
        obtain rfl := Option.some.inj h
        exact links_of_moves rfl rfl htask moves_goOn
  | cleaned id now =>
      rw [step] at h
      split at h
      case h_1 htask =>
        obtain rfl := Option.some.inj h
        exact links_of_moves rfl rfl htask moves_settle
      case h_2 htask =>
        obtain rfl := Option.some.inj h
        exact links_of_moves rfl rfl htask moves_finishRun
      case h_3 => cases h
  | deleteDevice deviceId =>
      obtain rfl := Option.some.inj h
      exact ⟨.kept rfl rfl rfl rfl, caught_of_log (.inl rfl)⟩

end Step

/-! ### The queue as promise chains -/

section Chains

variable {cfg : QueueConfig} {s t : QueueState} {a : Action} {id : JsString} {task : Task}

@[simp] lemma chainsOf_link (s : QueueState) (id : JsString) :
    (chainsOf s).link id = (s.tasks id).map Task.link := rfl

lemma link_of_waiting {printerName : JsString} {previous : Option JsString}
    (h : s.tasks id = some (.waiting printerName previous)) :
    (chainsOf s).link id = some (.waiting previous) := by
  rw [chainsOf_link, h, Option.map_some, Task.link]

lemma link_of_running {printerName : JsString} {pc : Pc}
    (h : s.tasks id = some (.running printerName pc)) :
    (chainsOf s).link id = some .running := by
  rw [chainsOf_link, h, Option.map_some, Task.link]

lemma waiting_of_link {previous : Option JsString}
    (h : (chainsOf s).link id = some (.waiting previous)) :
    ∃ printerName, s.tasks id = some (.waiting printerName previous) := by
  rw [chainsOf_link, Option.map_eq_some_iff] at h
  obtain ⟨task, htask, hlink⟩ := h
  cases task with
  | waiting printerName previous' =>
      obtain rfl := PromiseChain.Link.waiting.inj hlink
      exact ⟨printerName, htask⟩
  | running => cases hlink
  | settled => cases hlink

lemma chainsOf_update (htasks : t.tasks = Function.update s.tasks id (some task))
    (hchains : t.chains = s.chains) : chainsOf t = (chainsOf s).setLink id task.link := by
  refine PromiseChain.Chains.ext (funext fun j => ?_) hchains
  simp only [chainsOf, PromiseChain.Chains.setLink, htasks, Function.update_apply]
  split_ifs <;> rfl

lemma link_settled_iff : (chainsOf s).link id = some .settled ↔ s.tasks id = some .settled := by
  rw [chainsOf_link]
  cases s.tasks id with
  | none => simp
  | some task => cases task <;> simp [Task.link]

lemma link_running_iff : (chainsOf s).link id = some .running ↔ s.isRunning id = true := by
  rw [chainsOf_link, QueueState.isRunning]
  cases s.tasks id with
  | none => simp
  | some task => cases task <;> simp [Task.link]

lemma ready_iff {previous : Option JsString} :
    ready s previous = true ↔ (chainsOf s).Ready previous := by
  cases previous with
  | none => exact iff_of_true rfl trivial
  | some previous =>
      rw [ready, decide_eq_true_eq]
      exact link_settled_iff.symm

/-- A run that begins goes on, or settles at once. -/
lemma events_of_begun {previous : Option JsString}
    (hlink : (chainsOf s).link id = some (.waiting previous)) (hready : ready s previous = true)
    (hbegun : task.isBegun = true) : ∃ es,
      Run PromiseChain.Step (chainsOf s) es ((chainsOf s).setLink id task.link) ∧
        (∀ p, PromiseChain.appended p es = []) ∧ PromiseChain.started es = [id] := by
  have hstart : PromiseChain.Step (chainsOf s) (.start id) ((chainsOf s).setLink id .running) :=
    .start hlink (ready_iff.mp hready)
  cases task with
  | waiting printerName previous => cases hbegun
  | running printerName pc => exact ⟨[.start id], .single hstart, fun p => rfl, rfl⟩
  | settled =>
      have hsettle : PromiseChain.Step ((chainsOf s).setLink id .running) (.settle id)
          (((chainsOf s).setLink id .running).setLink id .settled) :=
        .settle (Function.update_self ..)
      rw [PromiseChain.Chains.setLink_setLink] at hsettle
      exact ⟨[.start id, .settle id], .cons hstart (.single hsettle), fun p => rfl, rfl⟩

/-- A run that goes on is the same link, until it settles. -/
lemma events_of_moved (hlink : (chainsOf s).link id = some .running)
    (hbegun : task.isBegun = true) : ∃ es,
      Run PromiseChain.Step (chainsOf s) es ((chainsOf s).setLink id task.link) ∧
        (∀ p, PromiseChain.appended p es = []) ∧ PromiseChain.started es = [] := by
  cases task with
  | waiting printerName previous => cases hbegun
  | running printerName pc =>
      have hsame : (chainsOf s).setLink id .running = chainsOf s :=
        PromiseChain.Chains.setLink_eq_self hlink
      refine ⟨[], ?_, fun p => rfl, rfl⟩
      rw [Task.link, hsame]
      exact .nil _
  | settled => exact ⟨[.settle id], .single (.settle hlink), fun p => rfl, rfl⟩

/-- Every link is that of a job whose id was drawn. -/
def Drawn (s : QueueState) : Prop := ∀ id, s.tasks id ≠ none → id ∈ s.usedIds

lemma appended_enqueued (p : JsString) (input : EnqueueInput) (now : Time) :
    PromiseChain.appended p [.append input.printerId id] =
      enqueuedOn p [.act (.enqueue id input now)] := by
  by_cases hp : input.printerId = p <;>
    simp [PromiseChain.appended, enqueuedOn, Call.appends, Action.appends, hp]

/-- **The queue moves as the promise chains of its printers.** -/
lemma events_of_step (hdrawn : Drawn s) (hserved : a.isServed = true) (h : step cfg s a = some t) :
    ∃ es, Run PromiseChain.Step (chainsOf s) es (chainsOf t) ∧
      (∀ p, PromiseChain.appended p es = enqueuedOn p [.act a]) ∧
        PromiseChain.started es = begun [.act a] := by
  have hquiet (happends : a.appends = none) (p : JsString) : enqueuedOn p [.act a] = [] := by
    simp [enqueuedOn, Call.appends, happends]
  have hidle (hbegins : a.begins = none) : begun [.act a] = [] := by
    simp [begun, Call.begins, hbegins]
  cases (step_links hserved h).1 with
  | kept happends hbegins htasks hchains =>
      have hsame : chainsOf t = chainsOf s := by rw [chainsOf, chainsOf, htasks, hchains]
      refine ⟨[], ?_, fun p => (hquiet happends p).symm, (hidle hbegins).symm⟩
      rw [hsame]
      exact .nil _
  | @enqueued id printerName input now ha hfresh _ htasks hchains =>
      subst ha
      have hnone : s.tasks id = none := by
        by_contra hsome
        exact hfresh (hdrawn id hsome)
      have hlink : (chainsOf s).link id = none := by rw [chainsOf_link, hnone, Option.map_none]
      have hnext : chainsOf t =
          { link := Function.update (chainsOf s).link id
              (some (.waiting ((chainsOf s).last input.printerId)))
            last := Function.update (chainsOf s).last input.printerId (some id) } := by
        refine PromiseChain.Chains.ext (funext fun j => ?_) hchains
        simp only [chainsOf_link, htasks, Function.update_apply]
        split_ifs <;> rfl
      rw [hnext]
      exact ⟨[.append input.printerId id], .single (.append hlink),
        fun p => appended_enqueued p input now, rfl⟩
  | @begun id printerName now previous task ha htask hready hbegun htasks hchains =>
      subst ha
      obtain ⟨es, hrun, happended, hstarted⟩ :=
        events_of_begun (link_of_waiting htask) hready hbegun
      rw [chainsOf_update htasks hchains]
      exact ⟨es, hrun, fun p => (happended p).trans rfl, hstarted.trans rfl⟩
  | moved happends hbegins htask hbegun htasks hchains =>
      obtain ⟨es, hrun, happended, hstarted⟩ := events_of_moved (link_of_running htask) hbegun
      rw [chainsOf_update htasks hchains]
      exact ⟨es, hrun, fun p => (happended p).trans (hquiet happends p).symm,
        hstarted.trans (hidle hbegins).symm⟩

/-- A run that is over stays so. -/
lemma settled_of_links {j : JsString} (hdrawn : Drawn s) (h : Links s a t)
    (hj : s.tasks j = some .settled) : t.tasks j = some .settled := by
  have hother {id : JsString} {task : Task}
      (htasks : t.tasks = Function.update s.tasks id (some task))
      (hid : s.tasks id ≠ some .settled) : t.tasks j = some .settled := by
    rw [htasks, Function.update_of_ne, hj]
    rintro rfl
    exact hid hj
  cases h with
  | kept _ _ htasks => rw [htasks, hj]
  | enqueued _ hfresh _ htasks =>
      refine hother htasks fun hsettled => hfresh (hdrawn _ ?_)
      rw [hsettled]
      exact Option.some_ne_none _
  | begun _ htask _ _ htasks =>
      refine hother htasks fun hsettled => ?_
      cases hsettled.symm.trans htask
  | moved _ _ htask _ htasks =>
      refine hother htasks fun hsettled => ?_
      cases hsettled.symm.trans htask

lemma drawn_step (hdrawn : Drawn s) (hserved : a.isServed = true) (h : step cfg s a = some t) :
    Drawn t := by
  have hkeep {id : JsString} {task : Task}
      (htasks : t.tasks = Function.update s.tasks id (some task))
      (hid : id ∈ t.usedIds) : Drawn t := by
    intro j hj
    by_cases hne : j = id
    · exact hne ▸ hid
    · rw [htasks, Function.update_of_ne hne] at hj
      exact usedIds_step h (hdrawn j hj)
  cases (step_links hserved h).1 with
  | kept _ _ htasks =>
      intro j hj
      rw [htasks] at hj
      exact usedIds_step h (hdrawn j hj)
  | enqueued _ _ hids htasks => exact hkeep htasks hids
  | begun _ htask _ _ htasks =>
      exact hkeep htasks (usedIds_step h (hdrawn _ (by rw [htask]; simp)))
  | moved _ _ htask _ htasks =>
      exact hkeep htasks (usedIds_step h (hdrawn _ (by rw [htask]; simp)))

end Chains

/-! ### Histories of calls -/

section Served

variable {cfg : QueueConfig} {s t : Serving} {c : Call} {cs : List Call}

lemma enqueuedOn_concat (p : JsString) (cs : List Call) (c : Call) :
    enqueuedOn p (cs ++ [c]) = enqueuedOn p cs ++ enqueuedOn p [c] := by
  rw [enqueuedOn, List.filterMap_append, List.filterMap_append]
  rfl

lemma begun_concat (cs : List Call) (c : Call) : begun (cs ++ [c]) = begun cs ++ begun [c] :=
  List.filterMap_append

/-- What a call does to the queue. -/
inductive Serves (cfg : QueueConfig) (s : Serving) (c : Call) (t : Serving) : Prop
  | acted {a : Action} (hc : c = .act a) (hserved : a.isServed = true)
      (hstep : step cfg s.queue a = some t.queue)
      (hprinters : t.printers = a.appends.elim s.printers fun link => setKey s.printers link.1)
  | threw {id printerName : JsString} {error : String} {pc : Pc} (hc : c = .threw id error)
      (htask : s.queue.tasks id = some (.running printerName pc))
      (hqueue : t.queue = s.queue.crash id error) (hprinters : t.printers = s.printers)
  | threwAtOnce {id printerName : JsString} {error : String} {previous : Option JsString}
      (hc : c = .threwAtOnce id error)
      (htask : s.queue.tasks id = some (.waiting printerName previous))
      (hready : ready s.queue previous = true) (hqueue : t.queue = s.queue.crash id error)
      (hprinters : t.printers = s.printers)
  | idle (happends : c.appends = none) (hbegins : c.begins = none)
      (hqueue : ∃ disposed, t.queue = { s.queue with disposed := disposed })
      (hprinters : t.printers = s.printers)

lemma serves_of_serve (h : serve cfg s c = some t) : Serves cfg s c t := by
  cases c with
  | act a =>
      rw [serve] at h
      split_ifs at h with hserved
      obtain ⟨queue, hqueue, rfl⟩ := Option.map_eq_some_iff.mp h
      exact .acted rfl hserved hqueue rfl
  | threw id error =>
      rw [serve] at h
      split at h
      case h_2 => cases h
      case h_1 printerName pc htask =>
        obtain rfl := Option.some.inj h
        exact .threw rfl htask rfl rfl
  | threwAtOnce id error =>
      rw [serve] at h
      split at h
      case h_2 => cases h
      case h_1 printerName previous htask =>
        split_ifs at h with hready
        obtain rfl := Option.some.inj h
        exact .threwAtOnce rfl htask hready rfl rfl
  | drain n =>
      rw [serve] at h
      split_ifs at h
      obtain rfl := Option.some.inj h
      exact .idle rfl rfl ⟨_, rfl⟩ rfl
  | dispose n =>
      rw [serve] at h
      split_ifs at h
      obtain rfl := Option.some.inj h
      exact .idle rfl rfl ⟨_, rfl⟩ rfl
  | woke n =>
      simp only [serve] at h
      split at h
      case h_2 => cases h
      case h_1 chains hdrain =>
        split_ifs at h
        · obtain rfl := Option.some.inj h
          exact .idle rfl rfl ⟨_, rfl⟩ rfl
        · obtain rfl := Option.some.inj h
          exact .idle rfl rfl ⟨_, rfl⟩ rfl

lemma chainsOf_crash (s : QueueState) (id : JsString) (error : String) :
    chainsOf (s.crash id error) = (chainsOf s).setLink id Task.settled.link :=
  chainsOf_update rfl rfl

/-- **Every call** moves the promise chains. -/
lemma events_of_serve (hdrawn : Drawn s.queue) (h : serve cfg s c = some t) : ∃ es,
      Run PromiseChain.Step (chainsOf s.queue) es (chainsOf t.queue) ∧
        (∀ p, PromiseChain.appended p es = enqueuedOn p [c]) ∧
          PromiseChain.started es = begun [c] := by
  cases serves_of_serve h with
  | acted hc hserved hstep =>
      subst hc
      exact events_of_step hdrawn hserved hstep
  | threw hc htask hqueue =>
      subst hc
      obtain ⟨es, hrun, happended, hstarted⟩ :=
        events_of_moved (link_of_running htask) (rfl : Task.settled.isBegun = true)
      rw [hqueue, chainsOf_crash]
      exact ⟨es, hrun, fun p => (happended p).trans rfl, hstarted.trans rfl⟩
  | threwAtOnce hc htask hready hqueue =>
      subst hc
      obtain ⟨es, hrun, happended, hstarted⟩ :=
        events_of_begun (link_of_waiting htask) hready (rfl : Task.settled.isBegun = true)
      rw [hqueue, chainsOf_crash]
      exact ⟨es, hrun, fun p => (happended p).trans rfl, hstarted.trans rfl⟩
  | idle happends hbegins hqueue =>
      obtain ⟨disposed, hqueue⟩ := hqueue
      have hsame : chainsOf t.queue = chainsOf s.queue := by
        rw [hqueue]
        rfl
      refine ⟨[], ?_, fun p => ?_, ?_⟩
      · rw [hsame]
        exact .nil _
      · simp [enqueuedOn, happends, PromiseChain.appended]
      · simp [begun, hbegins, PromiseChain.started]

/-- What holds after every history of calls. -/
structure Served (cs : List Call) (s : Serving) : Prop where
  chains : ∃ es, Run PromiseChain.Step .init es (chainsOf s.queue) ∧
    (∀ p, PromiseChain.appended p es = enqueuedOn p cs) ∧ PromiseChain.started es = begun cs
  drawn : Drawn s.queue
  printers : ∀ p, enqueuedOn p cs ≠ [] → p ∈ s.printers
  caught : ∀ id error, Event.crashed id error ∈ s.queue.log → s.queue.tasks id = some .settled

lemma served_start (jobs : Table PrintJobRow) (usedIds : List JsString) :
    Served [] (.start jobs usedIds) where
  chains := ⟨[], .nil _, fun _ => rfl, rfl⟩
  drawn _ h := absurd rfl h
  printers _ h := absurd rfl h
  caught _ _ h := absurd h List.not_mem_nil

lemma chains_step (h : Served cs s) (hstep : serve cfg s c = some t) : ∃ es,
    Run PromiseChain.Step .init es (chainsOf t.queue) ∧
      (∀ p, PromiseChain.appended p es = enqueuedOn p (cs ++ [c])) ∧
        PromiseChain.started es = begun (cs ++ [c]) := by
  obtain ⟨es, hrun, happended, hstarted⟩ := h.chains
  obtain ⟨fs, hrun', happended', hstarted'⟩ := events_of_serve h.drawn hstep
  refine ⟨es ++ fs, hrun.append hrun', fun p => ?_, ?_⟩
  · rw [enqueuedOn_concat, ← happended, ← happended']
    exact List.filterMap_append
  · rw [begun_concat, ← hstarted, ← hstarted']
    exact List.filterMap_append

lemma drawn_crash {s : QueueState} {id : JsString} {error : String} {task : Task} (h : Drawn s)
    (htask : s.tasks id = some task) : Drawn (s.crash id error) := by
  intro j hj
  refine h j ?_
  by_cases hne : j = id
  · rw [hne, htask]
    exact Option.some_ne_none _
  · have hsame : (s.crash id error).tasks j = s.tasks j := Function.update_of_ne hne _ _
    rwa [hsame] at hj

lemma caught_crash {s : QueueState} {id : JsString} {error : String}
    (h : ∀ id error, Event.crashed id error ∈ s.log → s.tasks id = some .settled) (j : JsString)
    (e : String) (hj : Event.crashed j e ∈ (s.crash id error).log) :
    (s.crash id error).tasks j = some .settled := by
  by_cases hne : j = id
  · rw [hne]
    exact Function.update_self ..
  · have hsame : (s.crash id error).tasks j = s.tasks j := Function.update_of_ne hne _ _
    rw [hsame]
    refine h j e ((List.mem_cons.mp hj).resolve_left fun heq => ?_)
    exact hne (Event.crashed.inj heq).1

lemma mem_setKey (keys : List JsString) (key : JsString) :
    key ∈ setKey keys key ∧ keys ⊆ setKey keys key := by
  rw [setKey]
  split_ifs with hmem
  · exact ⟨hmem, List.Subset.refl _⟩
  · exact ⟨by simp, List.subset_append_left _ _⟩

lemma printers_step (h : Served cs s) (hstep : serve cfg s c = some t) (p : JsString)
    (hp : enqueuedOn p (cs ++ [c]) ≠ []) : p ∈ t.printers := by
  have hold (hprinters : s.printers ⊆ t.printers) (hc : enqueuedOn p [c] = []) :
      p ∈ t.printers := by
    rw [enqueuedOn_concat, hc, List.append_nil] at hp
    exact hprinters (h.printers p hp)
  have hquiet (happends : c.appends = none) : enqueuedOn p [c] = [] := by
    simp [enqueuedOn, happends]
  cases serves_of_serve hstep with
  | @acted a hc hserved hact hprinters =>
      subst hc
      cases happends : a.appends with
      | none =>
          rw [happends, Option.elim_none] at hprinters
          exact hold (hprinters ▸ List.Subset.refl _) (hquiet happends)
      | some link =>
          rw [happends, Option.elim_some] at hprinters
          obtain ⟨hmem, hsub⟩ := mem_setKey s.printers link.1
          by_cases hlink : link.1 = p
          · rw [hprinters, ← hlink]
            exact hmem
          · refine hold (hprinters ▸ hsub) ?_
            simp [enqueuedOn, Call.appends, happends, hlink]
  | threw hc htask hqueue hprinters =>
      exact hold (hprinters ▸ List.Subset.refl _) (hquiet (hc ▸ rfl))
  | threwAtOnce hc htask hready hqueue hprinters =>
      exact hold (hprinters ▸ List.Subset.refl _) (hquiet (hc ▸ rfl))
  | idle happends hbegins hqueue hprinters =>
      exact hold (hprinters ▸ List.Subset.refl _) (hquiet happends)

lemma served_step (h : Served cs s) (hstep : serve cfg s c = some t) : Served (cs ++ [c]) t := by
  refine ⟨chains_step h hstep, ?_, printers_step h hstep, ?_⟩
  · cases serves_of_serve hstep with
    | acted hc hserved hact => exact drawn_step h.drawn hserved hact
    | threw hc htask hqueue => exact hqueue ▸ drawn_crash h.drawn htask
    | threwAtOnce hc htask hready hqueue => exact hqueue ▸ drawn_crash h.drawn htask
    | idle happends hbegins hqueue =>
        obtain ⟨disposed, hqueue⟩ := hqueue
        rw [hqueue]
        exact h.drawn
  · cases serves_of_serve hstep with
    | acted hc hserved hact =>
        obtain ⟨hlinks, hcaught⟩ := step_links hserved hact
        intro id error hlog
        rcases hcaught id error hlog with hlog | hsettled
        · exact settled_of_links h.drawn hlinks (h.caught id error hlog)
        · exact hsettled
    | threw hc htask hqueue => exact hqueue ▸ caught_crash h.caught
    | threwAtOnce hc htask hready hqueue => exact hqueue ▸ caught_crash h.caught
    | idle happends hbegins hqueue =>
        obtain ⟨disposed, hqueue⟩ := hqueue
        rw [hqueue]
        exact h.caught

lemma served_of_run {jobs : Table PrintJobRow} {usedIds : List JsString}
    (h : Run (Steps (serve cfg)) (.start jobs usedIds) cs s) : Served cs s :=
  h.history (fun _ _ _ _ hs hstep => served_step hs hstep) (served_start jobs usedIds)

/-! ### The order -/

/-- What the queue promises after a history of calls. -/
structure PrintOrder (cfg : QueueConfig) (cs : List Call) (s : Serving) : Prop where
  /-- The runs of a printer do not overlap. -/
  exclusive : ∀ printerId, ∀ id ∈ enqueuedOn printerId cs, ∀ id' ∈ enqueuedOn printerId cs,
    s.queue.isRunning id → s.queue.isRunning id' → id = id'
  /-- They begin in the order in which the jobs were enqueued. -/
  order : ∀ printerId, begunOn printerId cs <+: enqueuedOn printerId cs
  /-- A run that throws has settled its link. -/
  caught : ∀ id error, Event.crashed id error ∈ s.queue.log →
    s.queue.tasks id = some .settled
  /-- However the runs before a job ended, nothing else keeps its run from beginning. -/
  unblocked : ∀ printerId before id after, enqueuedOn printerId cs = before ++ id :: after →
    (∀ earlier ∈ before, s.queue.tasks earlier = some .settled) → id ∉ begun cs →
    ∀ now, (serve cfg s (.act (.begin id now))).isSome = true
  /-- When a `drain` resolves, every job has begun and finished its run. -/
  drained : ∀ n c t, serve cfg s c = some t → s.drains n ≠ some .resolved →
    t.drains n = some .resolved → ∀ printerId, ∀ id ∈ enqueuedOn printerId cs,
      id ∈ begun cs ∧ s.queue.tasks id = some .settled

/-- A `drain` resolves when the last links of all chains have settled. -/
lemma values_settled {n : ℕ} (h : serve cfg s c = some t) (hs : s.drains n ≠ some .resolved)
    (ht : t.drains n = some .resolved) :
    ∀ id ∈ s.values, s.queue.tasks id = some .settled := by
  have hloop {u : Serving} {m : ℕ} (hu : u.drains = s.drains)
      (hn : (u.loop m s.values).drains n = some .resolved) : s.values = [] := by
    rw [Serving.loop, hu] at hn
    simp only [Function.update_apply] at hn
    split_ifs at hn with hm hvalues
    · cases hn
    · exact List.length_eq_zero_iff.mp (by omega)
    · exact absurd hn hs
  have hempty (hvalues : s.values = []) : ∀ id ∈ s.values, s.queue.tasks id = some .settled := by
    simp [hvalues]
  cases c with
  | act a =>
      rw [serve] at h
      split_ifs at h
      obtain ⟨queue, -, rfl⟩ := Option.map_eq_some_iff.mp h
      exact absurd ht hs
  | threw id error =>
      rw [serve] at h
      split at h
      case h_2 => cases h
      case h_1 =>
        obtain rfl := Option.some.inj h
        exact absurd ht hs
  | threwAtOnce id error =>
      rw [serve] at h
      split at h
      case h_2 => cases h
      case h_1 =>
        split_ifs at h
        obtain rfl := Option.some.inj h
        exact absurd ht hs
  | drain m =>
      rw [serve] at h
      split_ifs at h
      obtain rfl := Option.some.inj h
      exact hempty (hloop rfl ht)
  | dispose m =>
      rw [serve] at h
      split_ifs at h
      obtain rfl := Option.some.inj h
      exact hempty (hloop rfl ht)
  | woke m =>
      simp only [serve] at h
      split at h
      case h_2 => cases h
      case h_1 chains hdrain =>
        split_ifs at h with hall hsame
        · rw [hsame]
          simpa using hall
        · obtain rfl := Option.some.inj h
          exact hempty (hloop rfl ht)

/-- **The order of printing**: whatever is enqueued on any printers, and however the runs end. -/
theorem print_order {jobs : Table PrintJobRow} {usedIds : List JsString}
    (h : Run (Steps (serve cfg)) (.start jobs usedIds) cs s) : PrintOrder cfg cs s := by
  have hserved := served_of_run h
  obtain ⟨es, hrun, happended, hstarted⟩ := hserved.chains
  have hordered := PromiseChain.ordered_of_run hrun
  have hbegun (p : JsString) : PromiseChain.begun p es = begunOn p cs := by
    rw [PromiseChain.begun, begunOn, hstarted, happended]
    exact List.filter_congr fun id _ => decide_eq_decide.mpr Iff.rfl
  have hlane (p : JsString) :
      PromiseChain.Lane (chainsOf s.queue).link (enqueuedOn p cs) (begunOn p cs) := by
    have hp := hordered.lane p
    rwa [happended, hbegun] at hp
  constructor
  · intro p id hid id' hid' hr hr'
    exact (hlane p).exclusive hid hid' (link_running_iff.mpr hr) (link_running_iff.mpr hr')
  · exact fun p => (hlane p).begun_in_order
  · exact hserved.caught
  · intro p before id after hjobs hbefore hnot now
    have hnot' : id ∉ begunOn p cs := fun hmem => hnot (List.mem_filter.mp hmem).1
    obtain ⟨previous, hlink, hready⟩ := (hlane p).unblocked hjobs
      (fun j hj => link_settled_iff.mpr (hbefore j hj)) hnot'
    have hr : ready s.queue previous = true := by
      cases previous with
      | none => rfl
      | some earlier => exact decide_eq_true (link_settled_iff.mp (hready earlier rfl))
    obtain ⟨printerName, htask⟩ := waiting_of_link hlink
    have hact : (Action.begin id now).isServed = true := rfl
    rw [serve, if_pos hact, Option.isSome_map, step, htask]
    simp only
    rw [if_pos hr]
    rfl
  · intro n c t hstep hs ht p id hid
    have hvalues := values_settled hstep hs ht
    have hprinter : p ∈ s.printers := hserved.printers p (List.ne_nil_of_mem hid)
    cases hlast : (enqueuedOn p cs).getLast? with
    | none =>
        rw [List.getLast?_eq_none_iff.mp hlast] at hid
        cases hid
    | some last =>
        have hchain : s.queue.chains p = some last := by
          have hp := hordered.last p
          rw [happended, hlast] at hp
          exact hp
        have hmem : last ∈ s.values := List.mem_filterMap.mpr ⟨p, hprinter, hchain⟩
        obtain ⟨hall, hsettled⟩ := (hlane p).settled_of_last hlast
          (link_settled_iff.mpr (hvalues last hmem))
        rw [← hall] at hid
        exact ⟨(List.mem_filter.mp hid).1, link_settled_iff.mp (hsettled id (hall ▸ hid))⟩

end Served

/-- Two jobs of a printer and one of another, which arrives while the queue is drained. The runs of
the first and the last job throw, the other one cannot read its file. -/
def drainedLate : List Call :=
  [.act (.enqueue (js "1") (plainInput "p") 1), .act (.enqueue (js "2") (plainInput "p") 2),
    .drain 0, .act (.begin (js "1") 3), .threw (js "1") "SQLITE_BUSY",
    .act (.enqueue (js "3") (plainInput "q") 4), .act (.begin (js "2") 5),
    .act (.copied (js "2") (.error "ENOENT")), .act (.cleaned (js "2") 6), .woke 0,
    .threwAtOnce (js "3") "SQLITE_BUSY", .woke 0]

theorem print_order_drainedLate : ∃ s,
    Run (Steps (serve plainConfig)) (.start .empty []) drainedLate s ∧
      s.drains 0 = some .resolved ∧ PrintOrder plainConfig drainedLate s := by
  obtain ⟨s, hrun, hdrain⟩ := exists_run_of_exec (serve plainConfig) (.start .empty []) drainedLate
    (fun s => decide (s.drains 0 = some .resolved)) (by decide +kernel)
  exact ⟨s, hrun, of_decide_eq_true hdrain, print_order hrun⟩

end LocalCast.Print
