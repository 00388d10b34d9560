import LocalCast.Client.Sse
import LocalCast.Db.Schema
import LocalCast.Foundations.ResumableLog
import LocalCast.Foundations.Runs

/-!
One event stream from the bus to the consumer, as text: the bus (`events/bus.ts`), the route
(`http/routes/events.ts`) and the client (`client-core/events.ts`) with its decoder.

* `EventContract`: the events, with how they are written and read back.
* `DeliveryState`: the bus, the connection of one device with the text in flight on it, and the
  client's resume point. Beside them what was published and what was consumed.
* `deliveryStep`: publications, heartbeats, reads of any length, drops, reconnects, restarts.
* `InFlight`: the events that the text on a connection still holds. Each step keeps it
  (`inFlight_open`, `InFlight.send`, `InFlight.read`), and reading is consuming some of them
  (`readText_consumed`).

Retry hints and the delay before a reconnect are left out.
-/

namespace LocalCast.Events.Resume

open JsString JsNumber Db Runs Client ResumableLog

/-! ### Events -/

/-- The events of the contract: their type, the heartbeat, `JSON.stringify`, and what the client
makes of a text, `JSON.parse` and the check against the schema. An event of the contract comes
back as it was, and its text has no line ends, which JSON escapes. -/
structure EventContract (E : Type) where
  type : E → JsString
  heartbeat : Time → E
  stringify : E → JsString
  decode : JsString → Option E
  type_heartbeat : ∀ at_, type (heartbeat at_) = js "heartbeat"
  type_plain : ∀ e, ∀ c ∈ type e, c ≠ 10 ∧ c ≠ 13
  stringify_plain : ∀ e, ∀ c ∈ stringify e, c ≠ 10 ∧ c ≠ 13
  decode_stringify : ∀ e, decode (stringify e) = some e

/-- The contract, what the device may see, and the size of the buffer. -/
structure Channel (E : Type) extends EventContract E where
  visible : E → Bool
  bufferSize : ℕ

variable {E : Type} (ch : Channel E)

def isHeartbeat (event : E) : Bool := ch.type event = js "heartbeat"

structure StoredEvent (E : Type) where
  id : ℕ
  event : E
deriving DecidableEq

/-- An event handed to `publish`, no heartbeat: by which server, and whether the client was then
between two connections. -/
structure Publication (E : Type) where
  stored : StoredEvent E
  run : ℕ
  between : Bool
deriving DecidableEq

/-- What the consumer got, and from which server. -/
structure Consumed (E : Type) where
  run : ℕ
  id : Option JsString
  event : E
deriving DecidableEq

/-! ### States -/

/-- An open connection: the client's decoder, the text written and not read yet, and the id the
heartbeats carry. -/
structure Connection where
  decoder : SseDecoder
  pending : JsString
  lastSentId : ℕ

structure DeliveryState (E : Type) where
  nextId : ℕ
  buffer : List (StoredEvent E)
  connection : Option Connection
  /-- The client's `#lastEventId`. -/
  lastEventId : Option JsString
  /-- How often the server was restarted. -/
  run : ℕ
  /-- What earlier servers and this one published, oldest first. -/
  past : List (Publication E)
  log : List (Publication E)
  /-- How many events there were when the client last lost a connection, and made one. -/
  leftAt : Option ℕ
  connectedAt : ℕ
  consumed : List (Consumed E)

namespace DeliveryState

def init : DeliveryState E :=
  { nextId := 1, buffer := [], connection := none, lastEventId := none, run := 0, past := []
    log := [], leftAt := none, connectedAt := 0, consumed := [] }

/-- All publications. -/
def published (s : DeliveryState E) : List (Publication E) := s.past ++ s.log

/-- The events of the present server. -/
def stored (s : DeliveryState E) : List (StoredEvent E) := s.log.map Publication.stored

/-- The client has been connected and is not. -/
def between (s : DeliveryState E) : Bool := s.connection.isNone && s.leftAt.isSome

end DeliveryState

/-! ### The route -/

/-- `send`. -/
def frameText (e : StoredEvent E) : JsString :=
  js "id: " ++ decimal e.id ++ js "\nevent: " ++ ch.type e.event ++
    js "\ndata: " ++ ch.stringify e.event ++ js "\n\n"

def Connection.send (conn : Connection) (e : StoredEvent E) : Connection :=
  { conn with pending := conn.pending ++ frameText ch e }

/-- `parseLastEventId`, of the decimal texts that ids are. -/
def parseLastEventId : Option JsString → Option ℕ
  | none => none
  | some raw => if raw = [] then none else safe (natural raw)

/-- `replay`. -/
def replay (s : DeliveryState E) (afterId : ℕ) : List (StoredEvent E) :=
  s.buffer.filter fun e => afterId < e.id && ch.visible e.event

/-- What a connection begins with. -/
def replayed (s : DeliveryState E) (lastEventId : Option JsString) : List (StoredEvent E) :=
  match parseLastEventId lastEventId with
  | none => []
  | some id => replay ch s id

/-- The route before it subscribes. -/
def openConnection (s : DeliveryState E) (lastEventId : Option JsString) : Connection :=
  ⟨.init, js "retry: 3000\n\n" ++ (replayed ch s lastEventId).flatMap (frameText ch), s.nextId - 1⟩

/-! ### The bus and the client -/

/-- `publish`, heard by the route. -/
def publish (s : DeliveryState E) (event : E) : DeliveryState E :=
  let sent : StoredEvent E := ⟨s.nextId, event⟩
  { s with
    nextId := s.nextId + 1
    buffer := if isHeartbeat ch event then s.buffer else push ch.bufferSize s.buffer sent
    connection := if ch.visible event then
        s.connection.map fun conn => { conn.send ch sent with lastSentId := s.nextId }
      else s.connection
    log := if isHeartbeat ch event then s.log else s.log ++ [⟨sent, s.run, s.between⟩] }

/-- `#consume`. -/
def consume (s : DeliveryState E) (frame : SseFrame) : DeliveryState E :=
  { s with
    lastEventId := frame.id.or s.lastEventId
    consumed := match ch.decode frame.data with
      | none => s.consumed
      | some event => s.consumed ++ [⟨s.run, frame.id, event⟩] }

/-- A read of the next `n` units of text. -/
def readText (s : DeliveryState E) (conn : Connection) (n : ℕ) : DeliveryState E :=
  let (decoder, frames) := conn.decoder.push (conn.pending.take n)
  frames.foldl (consume ch)
    { s with connection := some { conn with decoder := decoder, pending := conn.pending.drop n } }

/-! ### Steps -/

inductive DeliveryAction (E : Type) where
  | publish (event : E)
  /-- The timer of the route. -/
  | heartbeat (at_ : Time)
  | read (n : ℕ)
  /-- The connection is lost, and the text in flight with it. -/
  | cut
  | connect
  /-- The server goes down, and comes up with a new bus. -/
  | restart

def deliveryStep (s : DeliveryState E) : DeliveryAction E → Option (DeliveryState E)
  | .publish event => some (publish ch s event)
  | .heartbeat at_ => s.connection.map fun conn =>
      { s with connection := some (conn.send ch ⟨conn.lastSentId, ch.heartbeat at_⟩) }
  | .read n => s.connection.map fun conn => readText ch s conn n
  | .cut => s.connection.map fun _ =>
      { s with connection := none, leftAt := some s.published.length }
  | .connect => match s.connection with
      | none => some { s with
          connection := some (openConnection ch s s.lastEventId)
          connectedAt := s.published.length }
      | some _ => none
  | .restart => some { s with
      nextId := 1, buffer := [], connection := none, run := s.run + 1
      past := s.past ++ s.log, log := []
      leftAt := if s.connection.isSome then some s.published.length else s.leftAt }

/-! ### Text in flight -/

/-- What the decoder makes of an event. -/
def frameOf (e : StoredEvent E) : SseFrame :=
  ⟨some (decimal e.id), some (ch.type e.event), ch.stringify e.event⟩

def consumedOf (run : ℕ) (e : StoredEvent E) : Consumed E := ⟨run, some (decimal e.id), e.event⟩

/-- The events the text on a connection still holds. -/
def InFlight (conn : Connection) (flight : List (StoredEvent E)) : Prop :=
  SseDecoder.Carries conn.decoder conn.pending (flight.map (frameOf ch))

lemma plain_of_isDigit {c : CodeUnit} (h : isDigit c = true) : c ≠ 10 ∧ c ≠ 13 ∧ c ≠ 0 := by
  have hno := notMem_of_isDigit h (l := [10, 13, 0]) rfl
  simpa using hno

/-- The text of an event is a frame. -/
lemma carries_frameText (e : StoredEvent E) (d : SseDecoder) (hd : d.Idle) :
    SseDecoder.Carries d (frameText ch e) [frameOf ch e] := by
  obtain ⟨hbuffer, hdata, hevent⟩ := hd
  have hid (c : CodeUnit) (hc : c ∈ decimal e.id) : c ≠ 10 ∧ c ≠ 13 ∧ c ≠ 0 :=
    plain_of_isDigit (isDigit_of_mem_decimal hc)
  have htype := ch.type_plain e.event
  have htext := ch.stringify_plain e.event
  -- the four lines, the last one empty
  have hline {name value : JsString} (hname : ∀ c ∈ name, c ≠ 10 ∧ c ≠ 13)
      (hvalue : ∀ c ∈ value, c ≠ 10 ∧ c ≠ 13) :
      ∀ c ∈ name ++ 58 :: 32 :: value, c ≠ 10 ∧ c ≠ 13 := by
    intro c hc
    simp only [List.mem_append, List.mem_cons] at hc
    rcases hc with hc | rfl | rfl | hc
    · exact hname c hc
    · decide
    · decide
    · exact hvalue c hc
  have hlines : frameText ch e = (js "id" ++ 58 :: 32 :: decimal e.id) ++ 10 ::
      ((js "event" ++ 58 :: 32 :: ch.type e.event) ++ 10 ::
        ((js "data" ++ 58 :: 32 :: ch.stringify e.event) ++ 10 :: ([] ++ 10 :: []))) := by
    simp [frameText, js, encodeChar]
  have hsplit : splitLines (frameText ch e) = ([js "id" ++ 58 :: 32 :: decimal e.id,
      js "event" ++ 58 :: 32 :: ch.type e.event,
      js "data" ++ 58 :: 32 :: ch.stringify e.event, []], []) := by
    rw [hlines, splitLines_line (hline (forall_of_all (by decide)) fun c hc => ⟨(hid c hc).1, (hid c hc).2.1⟩),
      splitLines_line (hline (forall_of_all (by decide)) htype), splitLines_line (hline (forall_of_all (by decide)) htext),
      splitLines_line (by simp)]
    rfl
  have hzero : 0 ∉ decimal e.id := fun hc => (hid 0 hc).2.2 rfl
  have hpush : d.push (frameText ch e) =
      (⟨[], [], none, some (decimal e.id), d.retryMs⟩, [frameOf ch e]) := by
    rw [SseDecoder.push, hbuffer, List.nil_append, hsplit]
    simp only [SseDecoder.lines,
      SseDecoder.line_field (forall_of_all (by decide) : ∀ c ∈ js "id", c ≠ 58) (by decide),
      SseDecoder.line_field (forall_of_all (by decide) : ∀ c ∈ js "event", c ≠ 58) (by decide),
      SseDecoder.line_field (forall_of_all (by decide) : ∀ c ∈ js "data", c ≠ 58) (by decide),
      SseDecoder.setField_id hzero, SseDecoder.setField_event, SseDecoder.setField_data,
      SseDecoder.line_nil, SseDecoder.dispatch, hdata]
    simp [frameOf, join]
  refine ⟨by simp [hbuffer], ?_, congrArg Prod.snd hpush, ?_⟩
  · rw [hlines]
    have h1 := hline (forall_of_all (by decide) : ∀ c ∈ js "id", c ≠ 10 ∧ c ≠ 13)
      fun c hc => ⟨(hid c hc).1, (hid c hc).2.1⟩
    have h2 := hline (forall_of_all (by decide) : ∀ c ∈ js "event", c ≠ 10 ∧ c ≠ 13) htype
    have h3 := hline (forall_of_all (by decide) : ∀ c ∈ js "data", c ≠ 10 ∧ c ≠ 13) htext
    simp only [List.mem_append, List.mem_cons] at h1 h2 h3 ⊢
    grind
  · rw [hpush]
    exact ⟨rfl, rfl, rfl⟩

variable {ch}

lemma InFlight.send {conn : Connection} {flight : List (StoredEvent E)}
    (h : InFlight ch conn flight) (e : StoredEvent E) :
    InFlight ch (conn.send ch e) (flight ++ [e]) := by
  rw [InFlight, List.map_append]
  exact SseDecoder.Carries.append h (carries_frameText ch e)

/-- The id the heartbeats carry is no part of the text. -/
lemma InFlight.setLastSentId {conn : Connection} {flight : List (StoredEvent E)}
    (h : InFlight ch conn flight) (id : ℕ) :
    InFlight ch { conn with lastSentId := id } flight := h

/-- Everything written was read. -/
lemma InFlight.eq_nil {conn : Connection} {flight : List (StoredEvent E)}
    (h : InFlight ch conn flight) (hdone : conn.pending = []) : flight = [] := by
  rw [InFlight, hdone] at h
  exact List.map_eq_nil_iff.mp h.eq_nil

/-- The retry hint is no event. -/
lemma carries_retry : SseDecoder.Carries .init (js "retry: 3000\n\n") [] := by
  refine ⟨by simp [SseDecoder.init], ?_, ?_, ?_, ?_, ?_⟩ <;> decide +kernel

/-- A connection begins with what is replayed. -/
lemma inFlight_open (s : DeliveryState E) (lastEventId : Option JsString) :
    InFlight ch (openConnection ch s lastEventId) (replayed ch s lastEventId) := by
  have hall (es : List (StoredEvent E)) : SseDecoder.Carries .init
      (js "retry: 3000\n\n" ++ es.flatMap (frameText ch)) (es.map (frameOf ch)) := by
    induction es using List.reverseRecOn with
    | nil => exact carries_retry
    | append_singleton es e ih =>
        rw [List.flatMap_append, List.map_append, ← List.append_assoc, List.flatMap_singleton]
        exact ih.append (carries_frameText ch e)
  exact hall _

/-! ### Reading -/

/-- An event of the stream reaches the consumer. -/
def handle (s : DeliveryState E) (e : StoredEvent E) : DeliveryState E :=
  { s with lastEventId := some (decimal e.id), consumed := s.consumed ++ [consumedOf s.run e] }

lemma consume_frameOf (s : DeliveryState E) (e : StoredEvent E) :
    consume ch s (frameOf ch e) = handle s e := by
  simp [consume, frameOf, handle, consumedOf, ch.decode_stringify]

lemma foldl_consume (s : DeliveryState E) (es : List (StoredEvent E)) :
    (es.map (frameOf ch)).foldl (consume ch) s = es.foldl handle s := by
  simp only [List.foldl_map, consume_frameOf]

/-- Handling events touches nothing but the resume point and what was consumed. -/
lemma foldl_handle (s : DeliveryState E) (es : List (StoredEvent E)) :
    ∃ lastEventId, es.foldl handle s =
      { s with lastEventId := lastEventId, consumed := s.consumed ++ es.map (consumedOf s.run) } := by
  induction es generalizing s with
  | nil => exact ⟨s.lastEventId, by simp⟩
  | cons e es ih =>
      obtain ⟨lastEventId, hrest⟩ := ih (handle s e)
      exact ⟨lastEventId, by rw [List.foldl_cons, hrest]; simp [handle]⟩

/-- A read hands the consumer the first of the events in flight, and leaves the others. -/
lemma readText_eq {s : DeliveryState E} {conn : Connection} {flight : List (StoredEvent E)}
    (h : InFlight ch conn flight) (n : ℕ) : ∃ es rest conn', flight = es ++ rest ∧
      InFlight ch conn' rest ∧ conn'.lastSentId = conn.lastSentId ∧
      readText ch s conn n = es.foldl handle { s with connection := some conn' } := by
  rw [InFlight, ← List.take_append_drop n conn.pending] at h
  obtain ⟨frames, hframes, hrest⟩ := h.read
  obtain ⟨es, rest, hflight, hes, hfs⟩ := List.map_eq_append_iff.mp hframes
  refine ⟨es, rest, { conn with
    decoder := (conn.decoder.push (conn.pending.take n)).1
    pending := conn.pending.drop n }, hflight, ?_, rfl, ?_⟩
  · rw [InFlight, hfs]
    exact hrest
  · rw [← @foldl_consume E ch, hes]
    rfl

/-! ### Some events -/

/-- Notices of the connection, one about another device, and the heartbeat of time zero. -/
inductive Notice where
  | connecting | connected | permissions | heartbeat
deriving DecidableEq

def Notice.json : Notice → JsString
  | .connecting => js "\x7b\"type\":\"connection\",\"state\":\"connecting\"\x7d"
  | .connected => js "\x7b\"type\":\"connection\",\"state\":\"connected\"\x7d"
  | .permissions => js "\x7b\"type\":\"permissions\",\"deviceId\":\"d2\"\x7d"
  | .heartbeat => js "\x7b\"type\":\"heartbeat\",\"at\":0\x7d"

def Notice.parse (text : JsString) : Option Notice :=
  [Notice.connecting, .connected, .permissions, .heartbeat].find? fun n => n.json = text

/-- A stream of such notices. -/
def notices (bufferSize : ℕ) : Channel Notice where
  type
    | .heartbeat => js "heartbeat"
    | .permissions => js "permissions"
    | .connecting | .connected => js "connection"
  heartbeat _ := .heartbeat
  stringify := Notice.json
  decode := Notice.parse
  type_heartbeat _ := rfl
  type_plain n := by cases n <;> exact forall_of_all (by decide)
  stringify_plain n := by cases n <;> exact forall_of_all (by decide)
  decode_stringify n := by cases n <;> decide
  visible n := n ≠ .permissions
  bufferSize := bufferSize

end LocalCast.Events.Resume
