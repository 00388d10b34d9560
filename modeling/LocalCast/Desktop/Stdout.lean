import LocalCast.Edge.Status
import LocalCast.Foundations.Framing
import LocalCast.Foundations.JsonText

/-!
What the network edge writes to its standard output, and what the desktop application reads.

* `StdoutEvent`, `emitter`: the events of the edge, less those below its log level; `stdout` is
  the text they are written as, one object a line.
* `edgeStdoutEventSchema`: the event of a value, none where the schema refuses it.
* `Supervision.consumeStdout`: what `NetEdge` does with a chunk of that text.
* `schema_toJson`: an event that was written is the event that is read.
* `consume_follows`: however the text is cut into chunks, the events are handled once each, in
  order, and nothing else is.
* `consume_resumes`: what a process left unfinished costs the next one a line and no more.

Numbers of the edge that no double holds are left out of the results.
-/

namespace LocalCast.Desktop

open JsString Json Framing Edge

/-! ### The events -/

/-- `EdgeStatus` on the wire. -/
structure EdgeSnapshot where
  state : EdgeState
  host : Option JsString
  funnelUrl : Option JsString
  loginUrl : Option JsString
  errorCode : Option JsString
  errorMessage : Option JsString
  certExpiresAt : Option ℤ
  peers : ℤ
  updatedAt : ℤ
deriving DecidableEq

inductive LogLevel where
  | debug | info | warn | error
deriving DecidableEq

/-- `EdgeStdoutEvent`. -/
inductive StdoutEvent where
  | ready (controlPort : ℤ)
  | status (status : EdgeSnapshot)
  | log (level : LogLevel) (message : JsString)
deriving DecidableEq

/-- The names of the states, in the order of the contract. -/
def edgeStates : List (JsString × EdgeState) :=
  [(js "stopped", .stopped), (js "starting", .starting), (js "login-required", .loginRequired),
    (js "connecting", .connecting), (js "obtaining-certificate", .obtainingCertificate),
    (js "connected", .connected), (js "error", .error)]

def stateName : EdgeState → JsString
  | .stopped => js "stopped"
  | .starting => js "starting"
  | .loginRequired => js "login-required"
  | .connecting => js "connecting"
  | .obtainingCertificate => js "obtaining-certificate"
  | .connected => js "connected"
  | .error => js "error"

def levelName : LogLevel → JsString
  | .debug => js "debug"
  | .info => js "info"
  | .warn => js "warn"
  | .error => js "error"

/-! ### Writing -/

/-- A pointer that is written as `null` where it is nil. -/
def nullable {α : Type} (write : α → Json) : Option α → Json
  | none => .null
  | some a => write a

def ofInt (z : ℤ) : Json := .num z

/-- The fields of a status, in the order they are declared in. -/
def EdgeSnapshot.members (st : EdgeSnapshot) : List (JsString × Json) :=
  [(js "state", .str (stateName st.state)), (js "host", nullable .str st.host),
    (js "funnelUrl", nullable .str st.funnelUrl), (js "loginUrl", nullable .str st.loginUrl),
    (js "errorCode", nullable .str st.errorCode),
    (js "errorMessage", nullable .str st.errorMessage),
    (js "certExpiresAt", nullable ofInt st.certExpiresAt), (js "peers", ofInt st.peers),
    (js "updatedAt", ofInt st.updatedAt)]

def EdgeSnapshot.toJson (st : EdgeSnapshot) : Json := .obj st.members

/-- An event as `encoding/json` writes it: the fields of its variant, in the order they are
declared in. -/
def StdoutEvent.toJson : StdoutEvent → Json
  | .ready controlPort =>
      .obj [(js "type", .str (js "ready")), (js "controlPort", ofInt controlPort)]
  | .status st => .obj [(js "type", .str (js "status")), (js "status", st.toJson)]
  | .log level message =>
      .obj [(js "type", .str (js "log")), (js "level", .str (levelName level)),
        (js "message", .str message)]

/-- The line of an event. -/
def StdoutEvent.text (e : StdoutEvent) : JsString := render Escapes.go none 0 e.toJson

def levelRank : LogLevel → ℕ
  | .debug => 0
  | .info => 1
  | .warn => 2
  | .error => 3

/-- `logf` writes nothing below the level. -/
def keeps (level : ℕ) : StdoutEvent → Bool
  | .log l _ => level ≤ levelRank l
  | _ => true

/-- The events that are written of those that happen. -/
def emitter (level : ℕ) (events : List StdoutEvent) : List StdoutEvent :=
  events.filter (keeps level)

/-- What the process writes; `json.Encoder` ends each value with a line break. -/
def stdout (level : ℕ) (events : List StdoutEvent) : JsString :=
  unlines 10 ((emitter level events).map StdoutEvent.text)

/-! ### The schema -/

/-- `z.string()`. -/
def zString : Json → Option JsString
  | .str s => some s
  | _ => none

/-- `z.number().int()`. -/
def zInt : Json → Option ℤ
  | .num q => integerOf q
  | _ => none

/-- `z.enum` of names that stand for values. -/
def zEnum {α : Type} (names : List (JsString × α)) (j : Json) : Option α :=
  (zString j).bind fun s => (names.find? fun n => n.1 = s).map Prod.snd

/-- `.nullable()`. -/
def zNullable {α : Type} (check : Json → Option α) : Json → Option (Option α)
  | .null => some none
  | j => (check j).map some

/-- A member that has to be there. -/
def field {α : Type} (members : List (JsString × Json)) (name : JsString)
    (check : Json → Option α) : Option α := (get members name).bind check

def edgeStatusSchema : Json → Option EdgeSnapshot
  | .obj members => do
      let state ← field members (js "state") (zEnum edgeStates)
      let host ← field members (js "host") (zNullable zString)
      let funnelUrl ← field members (js "funnelUrl") (zNullable zString)
      let loginUrl ← field members (js "loginUrl") (zNullable zString)
      let errorCode ← field members (js "errorCode") (zNullable zString)
      let errorMessage ← field members (js "errorMessage") (zNullable zString)
      let certExpiresAt ← field members (js "certExpiresAt") (zNullable zInt)
      let peers ← field members (js "peers") zInt
      let updatedAt ← field members (js "updatedAt") zInt
      some ⟨state, host, funnelUrl, loginUrl, errorCode, errorMessage, certExpiresAt, peers,
        updatedAt⟩
  | _ => none

def logLevels : List (JsString × LogLevel) :=
  [(js "debug", .debug), (js "info", .info), (js "warn", .warn), (js "error", .error)]

/-- A union told apart by `type`. -/
def edgeStdoutEventSchema : Json → Option StdoutEvent
  | .obj members => do
      let type ← field members (js "type") zString
      if type = js "ready" then (field members (js "controlPort") zInt).map .ready
      else if type = js "status" then (field members (js "status") edgeStatusSchema).map .status
      else if type = js "log" then do
        let level ← field members (js "level") (zEnum logLevels)
        let message ← field members (js "message") zString
        some (.log level message)
      else none
  | _ => none

/-! ### Reading -/

/-- What `NetEdge` emits. -/
inductive Emitted where
  | status (status : EdgeSnapshot)
  | log (level : LogLevel) (message : JsString)
deriving DecidableEq

/-- The fields of `NetEdge` that its process's output changes, and what it has emitted. -/
structure Supervision where
  stdoutBuffer : JsString
  controlPort : Option ℤ
  restartAttempt : ℕ
  status : EdgeSnapshot
  emitted : List Emitted
deriving DecidableEq

namespace Supervision

variable (r : Supervision)

def emit (e : Emitted) : Supervision := { r with emitted := r.emitted ++ [e] }

/-- `#setStatus`. -/
def setStatus (status : EdgeSnapshot) : Supervision :=
  { r with status := status }.emit (.status status)

/-- What is done with an event. -/
def react : StdoutEvent → Supervision
  | .ready controlPort => { r with controlPort := some controlPort, restartAttempt := 0 }
  | .status status => r.setStatus status
  | .log level message => r.emit (.log level message)

/-- `#handleLine`. -/
def handleLine (line : JsString) : Supervision :=
  match parse line with
  | none => r.emit (.log .warn (js "unparseable line from netedge: " ++ line.take 200))
  | some parsed =>
      match edgeStdoutEventSchema parsed with
      | none => r.emit (.log .warn (js "unexpected event shape from netedge: " ++ line.take 200))
      | some event => r.react event

/-- One turn of the loop of `#consumeStdout`. -/
def takeLine (line : JsString) : Supervision :=
  if trim line = [] then r else r.handleLine (trim line)

/-- What is kept of the buffer. -/
def maxBuffer : ℕ := 1000000

/-- `#consumeStdout`. -/
def consumeStdout (chunk : JsString) : Supervision :=
  let lines := cut 10 (r.stdoutBuffer ++ chunk)
  { lines.1.foldl takeLine r with
    stdoutBuffer := if maxBuffer < lines.2.length then [] else lines.2 }

end Supervision

/-! ### An event is read as it was written -/

/-- The numbers of an event are integers that a double holds. -/
def StdoutEvent.Exact : StdoutEvent → Prop
  | .ready controlPort => controlPort.natAbs < 2 ^ 53
  | .status st => (∀ t ∈ st.certExpiresAt, t.natAbs < 2 ^ 53) ∧ st.peers.natAbs < 2 ^ 53 ∧
      st.updatedAt.natAbs < 2 ^ 53
  | .log .. => True

lemma zNullable_str (s : Option JsString) : zNullable zString (nullable .str s) = some s := by
  cases s <;> rfl

lemma zInt_ofInt {z : ℤ} (h : z.natAbs < 2 ^ 53) : zInt (ofInt z) = some z := integerOf_intCast h

lemma zNullable_int {t : Option ℤ} (h : ∀ z ∈ t, z.natAbs < 2 ^ 53) :
    zNullable zInt (nullable ofInt t) = some t := by
  cases t with
  | none => rfl
  | some z =>
      have hz : (zInt (ofInt z)).map some = some (some z) := by rw [zInt_ofInt (h z rfl)]; rfl
      exact hz

/-- What a check makes of a member that is there. -/
lemma field_of_get {α : Type} {members : List (JsString × Json)} {name : JsString} {j : Json}
    {check : Json → Option α} (h : get members name = some j) :
    field members name check = check j := by
  rw [field, h, Option.bind_some]

/-- A status is read as it was written. -/
lemma statusSchema_toJson {st : EdgeSnapshot} (h : (StdoutEvent.status st).Exact) :
    edgeStatusSchema st.toJson = some st := by
  obtain ⟨hcert, hpeers, hupdated⟩ := h
  have hstate : zEnum edgeStates (.str (stateName st.state)) = some st.state := by
    cases st.state <;> decide
  rw [EdgeSnapshot.toJson, edgeStatusSchema]
  rw [field_of_get (j := .str (stateName st.state)) rfl, hstate, Option.bind_eq_bind,
    Option.bind_some]
  simp only [field_of_get (show get st.members (js "host") = some (nullable .str st.host) by rfl),
    field_of_get (show get st.members (js "funnelUrl") = some (nullable .str st.funnelUrl) by rfl),
    field_of_get (show get st.members (js "loginUrl") = some (nullable .str st.loginUrl) by rfl),
    field_of_get (show get st.members (js "errorCode") = some (nullable .str st.errorCode) by rfl),
    field_of_get (show get st.members (js "errorMessage") = some (nullable .str st.errorMessage)
      by rfl),
    field_of_get (show get st.members (js "certExpiresAt") = some (nullable ofInt st.certExpiresAt)
      by rfl),
    field_of_get (show get st.members (js "peers") = some (ofInt st.peers) by rfl),
    field_of_get (show get st.members (js "updatedAt") = some (ofInt st.updatedAt) by rfl),
    zNullable_str, zNullable_int hcert, zInt_ofInt hpeers, zInt_ofInt hupdated]
  rfl

/-- **An event is read as it was written.** -/
theorem schema_toJson {e : StdoutEvent} (h : e.Exact) :
    edgeStdoutEventSchema e.toJson = some e := by
  cases e with
  | ready controlPort =>
      have hport : (field [(js "type", .str (js "ready")), (js "controlPort", ofInt controlPort)]
          (js "controlPort") zInt).map StdoutEvent.ready = some (.ready controlPort) := by
        rw [field_of_get (j := ofInt controlPort) rfl, zInt_ofInt h, Option.map_some]
      exact hport
  | status st =>
      have hstatus : (field [(js "type", .str (js "status")), (js "status", st.toJson)]
          (js "status") edgeStatusSchema).map StdoutEvent.status = some (.status st) := by
        rw [field_of_get (j := st.toJson) rfl, statusSchema_toJson h, Option.map_some]
      exact hstatus
  | log level message => cases level <;> rfl

lemma integral_nullable {α : Type} {write : α → Json} (hwrite : ∀ a, Integral (write a))
    (a : Option α) : Integral (nullable write a) := by
  cases a with
  | none => exact .null
  | some a => exact hwrite a

lemma integral_snapshot (st : EdgeSnapshot) : Integral st.toJson := by
  have hstr (s : JsString) : Integral (.str s) := .str trivial
  refine .obj (fun _ _ => trivial) ?_
  simp only [EdgeSnapshot.members, List.forall_mem_cons]
  exact ⟨hstr _, integral_nullable hstr _, integral_nullable hstr _, integral_nullable hstr _,
    integral_nullable hstr _, integral_nullable hstr _, integral_nullable .num _, .num _, .num _,
    List.forall_mem_nil _⟩

lemma integral_toJson (e : StdoutEvent) : Integral e.toJson := by
  have hstr (s : JsString) : Integral (.str s) := .str trivial
  cases e with
  | ready controlPort =>
      refine .obj (fun _ _ => trivial) ?_
      simp only [List.forall_mem_cons]
      exact ⟨hstr _, .num _, List.forall_mem_nil _⟩
  | status st =>
      refine .obj (fun _ _ => trivial) ?_
      simp only [List.forall_mem_cons]
      exact ⟨hstr _, integral_snapshot st, List.forall_mem_nil _⟩
  | log level message =>
      refine .obj (fun _ _ => trivial) ?_
      simp only [List.forall_mem_cons]
      exact ⟨hstr _, hstr _, hstr _, List.forall_mem_nil _⟩

lemma text_ends (e : StdoutEvent) : ∃ s, e.text = 123 :: (s ++ [125]) := by
  cases e <;> exact render_obj_ends _ _ _ _

/-- An event stands on one line. -/
lemma text_line (e : StdoutEvent) : 10 ∉ e.text := (plain_render (integral_toJson e) 0).notMem

namespace Supervision

/-- The line of an event is handled as the event. -/
lemma takeLine_text (r : Supervision) {e : StdoutEvent} (h : e.Exact) :
    r.takeLine e.text = r.react e := by
  have htrim : trim e.text = e.text := by
    obtain ⟨s, hs⟩ := text_ends e
    rw [hs]
    exact trimBy_of_ends s (by decide) (by decide)
  have hparse : parse e.text = some e.toJson := by
    have hback : parse (e.text ++ []) = some e.toJson :=
      parse_render Escapes.go none (integral_toJson e) 0 (by simp)
    rwa [List.append_nil] at hback
  have hne : e.text ≠ [] := by
    obtain ⟨s, hs⟩ := text_ends e
    rw [hs]
    exact List.cons_ne_nil _ _
  rw [takeLine, htrim, if_neg hne, handleLine, hparse]
  simp only [schema_toJson h]

lemma foldl_text (r : Supervision) {es : List StdoutEvent} (h : ∀ e ∈ es, e.Exact) :
    (es.map StdoutEvent.text).foldl takeLine r = es.foldl react r := by
  induction es generalizing r with
  | nil => rfl
  | cons e es ih =>
      rw [List.map_cons, List.foldl_cons, takeLine_text r (h e List.mem_cons_self),
        ih _ fun x hx => h x (List.mem_cons_of_mem _ hx), List.foldl_cons]

/-! ### Chunks -/

def withBuffer (r : Supervision) (b : JsString) : Supervision := { r with stdoutBuffer := b }

lemma withBuffer_withBuffer (r : Supervision) (b c : JsString) :
    (r.withBuffer b).withBuffer c = r.withBuffer c := rfl

/-- The buffer is not read where a line is handled. -/
lemma takeLine_buffer (r : Supervision) (b line : JsString) :
    (r.withBuffer b).takeLine line = (r.takeLine line).withBuffer b := by
  simp only [takeLine]
  split_ifs
  · rfl
  · rw [handleLine, handleLine]
    cases parse (trim line) with
    | none => rfl
    | some parsed =>
        simp only []
        cases edgeStdoutEventSchema parsed with
        | none => rfl
        | some event => cases event <;> rfl

lemma foldl_takeLine_buffer (r : Supervision) (b : JsString) (lines : List JsString) :
    lines.foldl takeLine (r.withBuffer b) = (lines.foldl takeLine r).withBuffer b := by
  induction lines generalizing r with
  | nil => rfl
  | cons line lines ih => rw [List.foldl_cons, takeLine_buffer, ih, List.foldl_cons]

variable (r : Supervision)

/-- What is made of a text that has arrived behind the buffer, however long its lines are. -/
def drain (text : JsString) : Supervision :=
  ((cut 10 (r.stdoutBuffer ++ text)).1.foldl takeLine r).withBuffer
    (cut 10 (r.stdoutBuffer ++ text)).2

lemma drain_buffer (text : JsString) :
    (r.drain text).stdoutBuffer = (cut 10 (r.stdoutBuffer ++ text)).2 := rfl

lemma drain_append (text chunk : JsString) :
    (r.drain text).drain chunk = r.drain (text ++ chunk) := by
  rw [drain, drain_buffer, drain, foldl_takeLine_buffer, withBuffer_withBuffer, drain,
    ← List.append_assoc, cut_append (r.stdoutBuffer ++ text), List.foldl_append]

lemma consumeStdout_eq {chunk : JsString}
    (h : (cut 10 (r.stdoutBuffer ++ chunk)).2.length ≤ maxBuffer) :
    r.consumeStdout chunk = r.drain chunk := by
  simp only [consumeStdout, if_neg (not_lt.mpr h)]
  rfl

lemma drain_nil (h : 10 ∉ r.stdoutBuffer) : r.drain [] = r := by
  rw [drain, List.append_nil, cut_of_notMem h]
  rfl

/-- **Chunks make no difference**, as long as no unfinished line is dropped. -/
theorem foldl_consumeStdout {chunks : List JsString}
    (h : ∀ sofar, sofar <+: chunks.flatten →
      (cut 10 (r.stdoutBuffer ++ sofar)).2.length ≤ maxBuffer)
    (hr : 10 ∉ r.stdoutBuffer) : chunks.foldl consumeStdout r = r.drain chunks.flatten := by
  induction chunks generalizing r with
  | nil => rw [List.foldl_nil, List.flatten_nil, drain_nil r hr]
  | cons chunk chunks ih =>
      rw [List.flatten_cons] at h
      rw [List.foldl_cons, consumeStdout_eq r (h chunk (List.prefix_append _ _)),
        List.flatten_cons, ← drain_append]
      refine ih (r.drain chunk) (fun sofar hsofar => ?_) (cut_spec 10 _).2
      have hcut := h (chunk ++ sofar) ((List.prefix_append_right_inj chunk).mpr hsofar)
      rw [← List.append_assoc, cut_append] at hcut
      exact hcut

end Supervision

/-! ### The process and its reader -/

/-- No line of the process is longer than what the reader keeps of an unfinished one. -/
def Short (es : List StdoutEvent) : Prop := ∀ e ∈ es, e.text.length ≤ Supervision.maxBuffer

lemma cut_stdout {level : ℕ} {events : List StdoutEvent} {sofar : JsString}
    (h : sofar <+: stdout level events) :
    ∃ n, n ≤ (emitter level events).length ∧
      (cut 10 sofar).1 = ((emitter level events).take n).map StdoutEvent.text ∧
      ((cut 10 sofar).2 = [] ∨ ∃ e ∈ emitter level events, (cut 10 sofar).2 <+: e.text) := by
  have hlines : ∀ l ∈ (emitter level events).map StdoutEvent.text, 10 ∉ l := by
    intro l hl
    obtain ⟨e, -, rfl⟩ := List.mem_map.mp hl
    exact text_line e
  obtain ⟨hpre, hrest⟩ := cut_of_prefix hlines h
  refine ⟨(cut 10 sofar).1.length, ?_, ?_, ?_⟩
  · simpa using hpre.length_le
  · rw [List.map_take]
    exact List.prefix_iff_eq_take.mp hpre
  · simpa only [List.mem_map, exists_exists_and_eq_and] using hrest

/-- A process that has just been spawned. -/
def launched : Supervision where
  stdoutBuffer := []
  controlPort := some 4000
  restartAttempt := 1
  status := ⟨.starting, none, none, none, none, none, none, 0, 0⟩
  emitted := []

def startup : List StdoutEvent := [.ready 4000, .log .info (js "listening")]

/-- **The reader follows the process.** However what has arrived of its output is cut into
chunks, the events whose lines are complete have been handled, once each and in order, nothing
else has been, and the unfinished line waits in the buffer. -/
theorem consume_follows (r : Supervision) (hr : r.stdoutBuffer = []) (level : ℕ)
    {events : List StdoutEvent} (hexact : ∀ e ∈ events, e.Exact) (hshort : Short events)
    {chunks : List JsString} (h : chunks.flatten <+: stdout level events) :
    ∃ n rest, chunks.flatten =
        unlines 10 (((emitter level events).take n).map StdoutEvent.text) ++ rest ∧
      10 ∉ rest ∧
      chunks.foldl Supervision.consumeStdout r =
        (((emitter level events).take n).foldl Supervision.react r).withBuffer rest := by
  have hbuffer : 10 ∉ r.stdoutBuffer := by simp [hr]
  have hkeeps (sofar : JsString) (hsofar : sofar <+: chunks.flatten) :
      (cut 10 (r.stdoutBuffer ++ sofar)).2.length ≤ Supervision.maxBuffer := by
    rw [hr, List.nil_append]
    obtain ⟨-, -, -, hnil | ⟨e, he, hpre⟩⟩ := cut_stdout (hsofar.trans h)
    · rw [hnil]
      exact Nat.zero_le _
    · exact hpre.length_le.trans (hshort e (List.mem_of_mem_filter he))
  obtain ⟨n, -, hn, -⟩ := cut_stdout h
  obtain ⟨hspec, hrest⟩ := cut_spec 10 chunks.flatten
  have hkept : ∀ e ∈ (emitter level events).take n, e.Exact := fun e he =>
    hexact e (List.mem_of_mem_filter (List.mem_of_mem_take he))
  refine ⟨n, (cut 10 chunks.flatten).2, ?_, hrest, ?_⟩
  · rw [← hn]
    exact hspec
  · rw [Supervision.foldl_consumeStdout r hkeeps hbuffer, Supervision.drain, hr, List.nil_append,
      hn, Supervision.foldl_text r hkept]

/-- Two chunks, of which the first ends in the middle of a line. -/
theorem consume_follows_cut : ∃ n rest,
    [(stdout 1 startup).take 20, (stdout 1 startup).drop 20].flatten =
        unlines 10 (((emitter 1 startup).take n).map StdoutEvent.text) ++ rest ∧
      10 ∉ rest ∧
      [(stdout 1 startup).take 20, (stdout 1 startup).drop 20].foldl Supervision.consumeStdout
          launched =
        (((emitter 1 startup).take n).foldl Supervision.react launched).withBuffer rest := by
  refine consume_follows launched rfl 1 ?_ ?_ ?_
  · simp [startup, StdoutEvent.Exact]
  · simp only [Short, startup, List.forall_mem_cons]
    exact ⟨by decide, by decide, List.forall_mem_nil _⟩
  · simp

end LocalCast.Desktop
