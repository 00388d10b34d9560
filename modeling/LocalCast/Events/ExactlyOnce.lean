import LocalCast.Events.Resume

/-!
Exactly-once delivery of events across reconnects, within one server lifetime.

* `ExactlyOnce`: behind the first frame with an id, the consumer got a prefix of the visible
  events numbered above it, and all of them once everything written was read.
* `Rides`, `ExactInv`: the events in flight lead from the client's resume point to the end of
  the log.
* `delivered_exactly_once`: so it is in every run in which, at each reconnect, the buffer reaches
  back to the first visible event the client has not received.
* `cut_replay_evicted`: where that is asked only of the events published since the connection was
  lost, an event whose replay was cut may have left the buffer by the next reconnect.
-/

namespace LocalCast.Events.Resume

open JsString JsNumber Db Runs Client ResumableLog

variable {E : Type} (ch : Channel E) {s : DeliveryState E} {o : Option ℕ}

/-! ### The law -/

def wanted (e : StoredEvent E) : Bool := ch.visible e.event

/-- What the consumer got, heartbeats apart. -/
def handed (consumed : List (Consumed E)) : List (Option JsString × E) :=
  (consumed.filter fun c => !isHeartbeat ch c.event).map fun c => (c.id, c.event)

/-- How events of the bus reach the consumer. -/
def asHanded (es : List (StoredEvent E)) : List (Option JsString × E) :=
  es.map fun e => (some (decimal e.id), e.event)

/-- The visible events numbered above an id. -/
def due (s : DeliveryState E) (id : ℕ) : List (Option JsString × E) :=
  asHanded (above StoredEvent.id (wanted ch) s.stored id)

/-- Behind the first frame with an id the consumer got the visible events published after it,
each once and in order: those so far, and all once nothing is in flight. -/
def ExactlyOnce (s : DeliveryState E) : Prop :=
  match s.consumed.dropWhile fun c => c.id.isNone with
  | [] => True
  | first :: rest => ∃ id, first.id.bind natural = some id ∧
      handed ch rest <+: due ch s id ∧
      ∀ conn ∈ s.connection, conn.pending = [] → handed ch rest = due ch s id

/-- The events of the bus from the first on that the client wants and has not got. -/
def missed (s : DeliveryState E) (id : ℕ) : List (StoredEvent E) :=
  s.stored.dropWhile fun e => !(decide (id < e.id) && wanted ch e)

/-- The server is not restarted, ids are safe integers, and at a reconnect no more events than
the buffer holds were published since the first that the client has missed. -/
def keepsUp (s : DeliveryState E) : DeliveryAction E → Bool
  | .publish _ => s.nextId < 2 ^ 53
  | .connect => (parseLastEventId s.lastEventId).all fun id =>
      (missed ch s id).length ≤ ch.bufferSize
  | .restart => false
  | .heartbeat _ | .read _ | .cut => true

/-! ### The invariant -/

/-- An event as a message to the reader of the log. -/
def message (e : StoredEvent E) : Message (StoredEvent E) :=
  ⟨e.id, if isHeartbeat ch e.event then none else some e⟩

/-- The consumer got all that is due up to the client's resume point. -/
def Caught (s : DeliveryState E) : Option ℕ → Prop
  | none => s.consumed = [] ∧ s.lastEventId = none
  | some j => ∃ first rest f, s.consumed = first :: rest ∧ first.id = some (decimal f) ∧
      s.lastEventId = some (decimal j) ∧ f ≤ j ∧
      handed ch rest = asHanded (upTo StoredEvent.id (wanted ch) s.stored f j)

/-- The events in flight lead the client from its resume point to the end of the log. -/
structure Rides (s : DeliveryState E) (o : Option ℕ) (conn : Connection)
    (flight : List (StoredEvent E)) : Prop where
  inFlight : InFlight ch conn flight
  covers : CoversFrom StoredEvent.id (wanted ch) s.stored o (flight.map (message ch))
  sent : ∀ e ∈ flight, e.id ≤ conn.lastSentId
  resumed : ∀ j ∈ o, j ≤ conn.lastSentId
  last : conn.lastSentId < s.nextId
  quiet : above StoredEvent.id (wanted ch) s.stored conn.lastSentId = []

/-- The bus: ids increase below the next one, which is a safe integer, and the buffer holds the
last of the events. -/
structure BusInv (s : DeliveryState E) : Prop where
  numbered : Numbered StoredEvent.id s.stored
  ids : ∀ e ∈ s.stored, e.id < s.nextId
  start : 1 ≤ s.nextId
  safe : s.nextId ≤ 2 ^ 53
  events : ∀ e ∈ s.stored, isHeartbeat ch e.event = false
  buffer : s.buffer = retained ch.bufferSize s.stored

structure ExactInv (s : DeliveryState E) : Prop where
  bus : BusInv ch s
  reader : ∃ o, Caught ch s o ∧ (∀ j ∈ o, j < s.nextId) ∧
    ∀ conn ∈ s.connection, ∃ flight, Rides ch s o conn flight

variable {ch}

lemma handed_append (l l' : List (Consumed E)) :
    handed ch (l ++ l') = handed ch l ++ handed ch l' := by
  simp [handed]

/-- The invariant carries the law. -/
lemma ExactInv.exactlyOnce (h : ExactInv ch s) : ExactlyOnce ch s := by
  obtain ⟨o, hcaught, hlt, hrides⟩ := h.reader
  cases o with
  | none =>
      rw [ExactlyOnce, hcaught.1]
      trivial
  | some j =>
      obtain ⟨first, rest, f, hconsumed, hfirst, -, hfj, hhanded⟩ := hcaught
      have hj := hlt j rfl
      have hsafe := h.bus.safe
      have hsplit : above StoredEvent.id (wanted ch) s.stored f =
          upTo StoredEvent.id (wanted ch) s.stored f j ++
            above StoredEvent.id (wanted ch) s.stored j := above_split h.bus.numbered hfj
      rw [ExactlyOnce, hconsumed, List.dropWhile_cons_of_neg (by simp [hfirst])]
      refine ⟨f, ?_, ?_, ?_⟩
      · rw [hfirst]
        exact natural_decimal (by omega)
      · rw [hhanded, due, hsplit, asHanded, asHanded, List.map_append]
        exact List.prefix_append _ _
      · intro conn hconn hdone
        obtain ⟨flight, hflight⟩ := hrides conn hconn
        have hnil := hflight.inFlight.eq_nil hdone
        have hcovers := hflight.covers
        rw [hnil] at hcovers
        have hrest : above StoredEvent.id (wanted ch) s.stored j = [] := hcovers
        rw [hhanded, due, hsplit, hrest, List.append_nil]

/-! ### The client -/

/-- One event in flight is handled. -/
lemma caught_handle {e : StoredEvent E} {ms : List (Message (StoredEvent E))} (h : Caught ch s o)
    (hnum : Numbered StoredEvent.id s.stored)
    (hcovers : CoversFrom StoredEvent.id (wanted ch) s.stored o (message ch e :: ms)) :
    Caught ch (handle s e) (some e.id) ∧
      CoversFrom StoredEvent.id (wanted ch) (handle s e).stored (some e.id) ms := by
  cases o with
  | none =>
      refine ⟨⟨consumedOf s.run e, [], e.id, ?_, rfl, rfl, le_rfl, ?_⟩, hcovers⟩
      · show s.consumed ++ [consumedOf s.run e] = _
        rw [h.1, List.nil_append]
      · have hself : upTo StoredEvent.id (wanted ch) s.stored e.id e.id = [] := by
          refine List.filter_eq_nil_iff.mpr fun a _ => ?_
          simp only [Bool.and_eq_true, decide_eq_true_eq, not_and]
          omega
        exact (congrArg asHanded hself).symm
  | some j =>
      obtain ⟨first, rest, f, hconsumed, hfirst, -, hfj, hhanded⟩ := h
      obtain ⟨hle, hbetween, hrest⟩ := hcovers
      refine ⟨⟨first, rest ++ [consumedOf s.run e], f, ?_, hfirst, rfl, hfj.trans hle, ?_⟩, hrest⟩
      · show s.consumed ++ [consumedOf s.run e] = _
        rw [hconsumed, List.cons_append]
      · have hone : handed ch [consumedOf s.run e] = asHanded (message ch e).entry.toList := by
          cases hb : isHeartbeat ch e.event <;> simp [handed, consumedOf, asHanded, message, hb]
        have hsplit : upTo StoredEvent.id (wanted ch) s.stored f e.id =
            upTo StoredEvent.id (wanted ch) s.stored f j ++ (message ch e).entry.toList := by
          rw [← hbetween]
          exact upTo_split hnum hfj hle
        show handed ch (rest ++ [consumedOf s.run e]) =
          asHanded (upTo StoredEvent.id (wanted ch) s.stored f e.id)
        rw [handed_append, hhanded, hone, hsplit, asHanded, asHanded, asHanded, List.map_append]

/-- All the events of a read are handled. -/
lemma caught_foldl_handle {es rest : List (StoredEvent E)} (h : Caught ch s o)
    (hnum : Numbered StoredEvent.id s.stored)
    (hcovers : CoversFrom StoredEvent.id (wanted ch) s.stored o ((es ++ rest).map (message ch))) :
    ∃ o', Caught ch (es.foldl handle s) o' ∧
      CoversFrom StoredEvent.id (wanted ch) s.stored o' (rest.map (message ch)) ∧
      ∀ j ∈ o', j ∈ o ∨ ∃ e ∈ es, e.id = j := by
  induction es generalizing s o with
  | nil => exact ⟨o, h, hcovers, fun j hj => .inl hj⟩
  | cons e es ih =>
      obtain ⟨hcaught, hcovers⟩ := caught_handle h hnum hcovers
      obtain ⟨o', hcaught', hcovers', hfrom⟩ := ih hcaught hnum hcovers
      refine ⟨o', hcaught', hcovers', fun j hj => .inr ?_⟩
      rcases hfrom j hj with hej | ⟨e', he', hj⟩
      · exact ⟨e, List.mem_cons_self, Option.mem_some_iff.mp hej⟩
      · exact ⟨e', List.mem_cons_of_mem _ he', hj⟩

/-! ### Steps -/

lemma stored_publish (s : DeliveryState E) (event : E) : (publish ch s event).stored =
    if isHeartbeat ch event then s.stored else s.stored ++ [⟨s.nextId, event⟩] := by
  cases h : isHeartbeat ch event <;> simp [publish, DeliveryState.stored, h]

lemma BusInv.publish (h : BusInv ch s) (event : E) (hsafe : s.nextId < 2 ^ 53) :
    BusInv ch (publish ch s event) := by
  cases hb : isHeartbeat ch event with
  | true =>
      have hstored : (Resume.publish ch s event).stored = s.stored := by
        rw [stored_publish, hb, if_pos rfl]
      have hbuffer : (Resume.publish ch s event).buffer = s.buffer := if_pos hb
      refine ⟨?_, ?_, Nat.le_add_left _ _, hsafe, ?_, ?_⟩
      · rw [hstored]
        exact h.numbered
      · rw [hstored]
        exact fun e he => Nat.lt_succ_of_lt (h.ids e he)
      · rw [hstored]
        exact h.events
      · rw [hstored, hbuffer]
        exact h.buffer
  | false =>
      have hstored : (Resume.publish ch s event).stored = s.stored ++ [⟨s.nextId, event⟩] := by
        rw [stored_publish, hb, if_neg Bool.false_ne_true]
      have hbuffer : (Resume.publish ch s event).buffer =
          push ch.bufferSize s.buffer ⟨s.nextId, event⟩ := if_neg (by simp [hb])
      refine ⟨?_, ?_, Nat.le_add_left _ _, hsafe, ?_, ?_⟩
      · rw [hstored]
        exact h.numbered.append h.ids
      · rw [hstored]
        intro e he
        rcases List.mem_append.mp he with he | he
        · exact Nat.lt_succ_of_lt (h.ids e he)
        · rw [List.mem_singleton.mp he]
          exact Nat.lt_succ_self _
      · rw [hstored]
        intro e he
        rcases List.mem_append.mp he with he | he
        · exact h.events e he
        · rw [List.mem_singleton.mp he]
          exact hb
      · rw [hstored, hbuffer, h.buffer, retained_append]

/-- What was due up to the resume point stays so while events are published. -/
lemma Caught.publish (h : Caught ch s o) (ho : ∀ j ∈ o, j < s.nextId) (event : E) :
    Caught ch (publish ch s event) o := by
  cases o with
  | none => exact h
  | some j =>
      obtain ⟨first, rest, f, hconsumed, hfirst, hlast, hfj, hhanded⟩ := h
      refine ⟨first, rest, f, hconsumed, hfirst, hlast, hfj, hhanded.trans ?_⟩
      rw [stored_publish]
      split_ifs
      · rfl
      · have hj : j < StoredEvent.id (⟨s.nextId, event⟩ : StoredEvent E) := ho j rfl
        rw [upTo_append_of_lt hj]

lemma message_of_event {e : StoredEvent E} (he : isHeartbeat ch e.event = false) :
    message ch e = handing StoredEvent.id e := by
  rw [message, he, if_neg Bool.false_ne_true]
  rfl

lemma message_of_heartbeat {e : StoredEvent E} (he : isHeartbeat ch e.event = true) :
    message ch e = ⟨e.id, none⟩ := by
  rw [message, if_pos he]

/-- What an event that is published does to the stream. -/
lemma Rides.publish {conn : Connection} {flight : List (StoredEvent E)} (h : Rides ch s o conn flight)
    (hbus : BusInv ch s) (event : E) : ∀ conn' ∈ (publish ch s event).connection,
      s.connection = some conn → ∃ flight', Rides ch (publish ch s event) o conn' flight' := by
  intro conn' hconn' hconn
  have hlt (j : ℕ) (hj : j ∈ o) : j < s.nextId := (h.resumed j hj).trans_lt h.last
  have hsent (e : StoredEvent E) (he : e ∈ flight) : e.id < s.nextId := (h.sent e he).trans_lt h.last
  have hmessages (m : Message (StoredEvent E)) (hm : m ∈ flight.map (message ch)) :
      m.key < s.nextId := by
    obtain ⟨e, he, rfl⟩ := List.mem_map.mp hm
    exact hsent e he
  cases hv : ch.visible event with
  | false =>
      -- not for this device: only the log may grow
      have hsame : (Resume.publish ch s event).connection = s.connection := if_neg (by simp [hv])
      rw [hsame, hconn] at hconn'
      cases hconn'
      have hunwanted : wanted ch ⟨s.nextId, event⟩ = false := hv
      refine ⟨flight, h.inFlight, ?_, h.sent, h.resumed, Nat.lt_succ_of_lt h.last, ?_⟩
      · rw [stored_publish]
        split_ifs
        · exact h.covers
        · exact h.covers.append_unwanted hunwanted
      · rw [stored_publish]
        split_ifs
        · exact h.quiet
        · exact (above_append_of_unwanted hunwanted _).trans h.quiet
  | true =>
      have hnew : (Resume.publish ch s event).connection = s.connection.map fun conn =>
          { conn.send ch ⟨s.nextId, event⟩ with lastSentId := s.nextId } := if_pos hv
      rw [hnew, hconn] at hconn'
      cases hconn'
      have hquiet : above StoredEvent.id (wanted ch) s.stored s.nextId = [] :=
        above_eq_nil fun e he => Nat.le_of_lt (hbus.ids e he)
      refine ⟨flight ++ [⟨s.nextId, event⟩], (h.inFlight.send _).setLastSentId _, ?_, ?_,
        fun j hj => Nat.le_of_lt (hlt j hj), Nat.lt_succ_self _, ?_⟩
      · rw [stored_publish, List.map_append, List.map_singleton]
        split_ifs with hb
        · rw [message_of_heartbeat hb]
          exact h.covers.append_mark (fun j hj => Nat.le_of_lt (hlt j hj))
            (fun m hm => Nat.le_of_lt (hmessages m hm)) hquiet
        · rw [message_of_event (by simpa using hb)]
          exact h.covers.append_wanted hv hlt hmessages hbus.ids
      · intro e he
        rcases List.mem_append.mp he with he | he
        · exact Nat.le_of_lt (hsent e he)
        · rw [List.mem_singleton.mp he]
      · rw [stored_publish]
        split_ifs
        · exact hquiet
        · show above StoredEvent.id (wanted ch) (s.stored ++ [⟨s.nextId, event⟩]) s.nextId = []
          rw [above_append, hquiet, if_neg (by simp), List.nil_append]

lemma ExactInv.publish (h : ExactInv ch s) (event : E) (hsafe : s.nextId < 2 ^ 53) :
    ExactInv ch (publish ch s event) := by
  obtain ⟨o, hcaught, hlt, hrides⟩ := h.reader
  refine ⟨h.bus.publish event hsafe, o, hcaught.publish hlt event,
    fun j hj => Nat.lt_succ_of_lt (hlt j hj), ?_⟩
  intro conn' hconn'
  cases hconn : s.connection with
  | none =>
      have hnone : (Resume.publish ch s event).connection = none := by
        cases hv : ch.visible event <;> simp [Resume.publish, hv, hconn]
      rw [hnone] at hconn'
      cases hconn'
  | some conn =>
      obtain ⟨flight, hflight⟩ := hrides conn hconn
      exact hflight.publish h.bus event conn' hconn' hconn

lemma isHeartbeat_heartbeat (at_ : Time) : isHeartbeat ch (ch.heartbeat at_) = true := by
  simp [isHeartbeat, ch.type_heartbeat]

/-- A heartbeat repeats an id past which nothing is due. -/
lemma Rides.heartbeat {conn : Connection} {flight : List (StoredEvent E)}
    (h : Rides ch s o conn flight) (at_ : Time) :
    Rides ch s o (conn.send ch ⟨conn.lastSentId, ch.heartbeat at_⟩)
      (flight ++ [⟨conn.lastSentId, ch.heartbeat at_⟩]) := by
  refine ⟨h.inFlight.send _, ?_, ?_, h.resumed, h.last, h.quiet⟩
  · rw [List.map_append, List.map_singleton, message_of_heartbeat (isHeartbeat_heartbeat at_)]
    refine h.covers.append_mark h.resumed ?_ h.quiet
    intro m hm
    obtain ⟨e, he, rfl⟩ := List.mem_map.mp hm
    exact h.sent e he
  · intro e he
    rcases List.mem_append.mp he with he | he
    · exact h.sent e he
    · rw [List.mem_singleton.mp he]
      rfl

lemma ExactInv.read (h : ExactInv ch s) {conn : Connection} (hconn : s.connection = some conn)
    (n : ℕ) : ExactInv ch (readText ch s conn n) := by
  obtain ⟨o, hcaught, hlt, hrides⟩ := h.reader
  obtain ⟨flight, hflight⟩ := hrides conn hconn
  obtain ⟨es, rest, conn', rfl, hrest, hlastSent, hread⟩ := readText_eq hflight.inFlight n
  set s' : DeliveryState E := { s with connection := some conn' }
  have hcaught' : Caught ch s' o := by
    cases o with
    | none => exact hcaught
    | some j => exact hcaught
  obtain ⟨o', hfinal, hcovers, hfrom⟩ :=
    caught_foldl_handle hcaught' h.bus.numbered hflight.covers
  obtain ⟨lastEventId, hfold⟩ := foldl_handle s' es
  have hle (j : ℕ) (hj : j ∈ o') : j ≤ conn.lastSentId := by
    rcases hfrom j hj with hj | ⟨e, he, rfl⟩
    · exact hflight.resumed j hj
    · exact hflight.sent e (List.mem_append_left _ he)
  rw [hread]
  rw [hfold] at hfinal ⊢
  refine ⟨⟨h.bus.numbered, h.bus.ids, h.bus.start, h.bus.safe, h.bus.events, h.bus.buffer⟩,
    o', hfinal, fun j hj => (hle j hj).trans_lt hflight.last, ?_⟩
  intro conn'' hconn''
  cases hconn''
  refine ⟨rest, hrest, hcovers, ?_, ?_, ?_, ?_⟩
  · rw [hlastSent]
    exact fun e he => hflight.sent e (List.mem_append_right _ he)
  · rw [hlastSent]
    exact hle
  · rw [hlastSent]
    exact hflight.last
  · rw [hlastSent]
    exact hflight.quiet

/-- A decimal id comes back from the header. -/
lemma parseLastEventId_decimal {j : ℕ} (hj : j < 2 ^ 53) :
    parseLastEventId (some (decimal j)) = some j := by
  rw [parseLastEventId, if_neg (decimal_ne_nil j), natural_decimal hj, safe]
  simpa using hj

/-- Where the buffer reaches back far enough, what is replayed covers the log. -/
lemma covers_replayed (h : BusInv ch s) (hcaught : Caught ch s o) (hlt : ∀ j ∈ o, j < s.nextId)
    (hkeeps : keepsUp ch s .connect = true) :
    CoversFrom StoredEvent.id (wanted ch) s.stored o
        ((replayed ch s s.lastEventId).map (message ch)) ∧
      ∀ e ∈ replayed ch s s.lastEventId, e ∈ s.stored := by
  cases o with
  | none =>
      have hnil : replayed ch s s.lastEventId = [] := by
        rw [hcaught.2]
        rfl
      rw [hnil]
      exact ⟨trivial, by simp⟩
  | some j =>
      obtain ⟨_, _, _, _, _, hlast, _⟩ := hcaught
      have hj : j < 2 ^ 53 := (hlt j rfl).trans_le h.safe
      have hparse := parseLastEventId_decimal hj
      have hreach : (missed ch s j).length ≤ ch.bufferSize := by
        simpa [keepsUp, hlast, hparse] using hkeeps
      have hreplayed : replayed ch s s.lastEventId =
          above StoredEvent.id (wanted ch) s.stored j := by
        calc replayed ch s s.lastEventId
            = above StoredEvent.id (wanted ch) s.buffer j := by rw [replayed, hlast, hparse]; rfl
          _ = above StoredEvent.id (wanted ch) s.stored j := by
              rw [h.buffer, above_retained hreach]
      have hmem : ∀ e ∈ replayed ch s s.lastEventId, e ∈ s.stored := by
        rw [hreplayed]
        exact fun e he => List.mem_of_mem_filter he
      have hmessages : (replayed ch s s.lastEventId).map (message ch) =
          (above StoredEvent.id (wanted ch) s.stored j).map (handing StoredEvent.id) := by
        rw [← hreplayed]
        exact List.map_congr_left fun e he => message_of_event (h.events e (hmem e he))
      rw [hmessages]
      exact ⟨covers_above h.numbered j, hmem⟩

lemma ExactInv.connect (h : ExactInv ch s) (hkeeps : keepsUp ch s .connect = true) (n : ℕ) :
    ExactInv ch { s with
      connection := some (openConnection ch s s.lastEventId), connectedAt := n } := by
  obtain ⟨o, hcaught, hlt, -⟩ := h.reader
  obtain ⟨hcovers, hmem⟩ := covers_replayed h.bus hcaught hlt hkeeps
  have hlast : (openConnection ch s s.lastEventId).lastSentId = s.nextId - 1 := rfl
  have hstart := h.bus.start
  refine ⟨⟨h.bus.numbered, h.bus.ids, h.bus.start, h.bus.safe, h.bus.events, h.bus.buffer⟩, o,
    ?_, hlt, ?_⟩
  · cases o with
    | none => exact hcaught
    | some j => exact hcaught
  · intro conn hconn
    cases hconn
    refine ⟨_, inFlight_open s s.lastEventId, hcovers, ?_, ?_, ?_, ?_⟩
    · intro e he
      have := h.bus.ids e (hmem e he)
      rw [hlast]
      omega
    · intro j hj
      have := hlt j hj
      rw [hlast]
      omega
    · show s.nextId - 1 < s.nextId
      omega
    · refine above_eq_nil fun e he => ?_
      have := h.bus.ids e he
      rw [hlast]
      omega

/-- Without a connection nothing rides. -/
lemma ExactInv.cut (h : ExactInv ch s) (n : Option ℕ) :
    ExactInv ch { s with connection := none, leftAt := n } := by
  obtain ⟨o, hcaught, hlt, -⟩ := h.reader
  refine ⟨⟨h.bus.numbered, h.bus.ids, h.bus.start, h.bus.safe, h.bus.events, h.bus.buffer⟩, o,
    ?_, hlt, by simp⟩
  cases o with
  | none => exact hcaught
  | some j => exact hcaught

lemma exactInv_init : ExactInv ch (.init : DeliveryState E) := by
  have hstored : (.init : DeliveryState E).stored = [] := rfl
  refine ⟨⟨?_, ?_, le_rfl, Nat.one_le_two_pow, ?_, ?_⟩, none, ⟨rfl, rfl⟩, by simp, ?_⟩
  · exact List.Pairwise.nil
  · simp [hstored]
  · simp [hstored]
  · rw [hstored]
    exact List.drop_nil.symm
  · simp [DeliveryState.init]

/-- Every step within the condition keeps the invariant. -/
lemma exactInv_step {t : DeliveryState E} {a : DeliveryAction E} (h : ExactInv ch s)
    (hstep : Guarded (fun s a => keepsUp ch s a = true) (deliveryStep ch) s a t) :
    ExactInv ch t := by
  obtain ⟨hkeeps, hstep⟩ := hstep
  cases a with
  | publish event =>
      cases hstep
      exact h.publish event (by simpa [keepsUp] using hkeeps)
  | heartbeat at_ =>
      obtain ⟨conn, hconn, rfl⟩ := Option.map_eq_some_iff.mp hstep
      obtain ⟨o, hcaught, hlt, hrides⟩ := h.reader
      obtain ⟨flight, hflight⟩ := hrides conn hconn
      have hnext := hflight.heartbeat at_
      refine ⟨⟨h.bus.numbered, h.bus.ids, h.bus.start, h.bus.safe, h.bus.events, h.bus.buffer⟩, o,
        ?_, hlt, ?_⟩
      · cases o with
        | none => exact hcaught
        | some j => exact hcaught
      · intro conn' hconn'
        cases hconn'
        exact ⟨_, hnext.inFlight, hnext.covers, hnext.sent, hnext.resumed, hnext.last,
          hnext.quiet⟩
  | read n =>
      obtain ⟨conn, hconn, rfl⟩ := Option.map_eq_some_iff.mp hstep
      exact h.read hconn n
  | cut =>
      obtain ⟨conn, hconn, rfl⟩ := Option.map_eq_some_iff.mp hstep
      exact h.cut _
  | connect =>
      cases hconn : s.connection with
      | none =>
          simp only [deliveryStep, hconn] at hstep
          cases hstep
          exact h.connect hkeeps _
      | some conn =>
          simp only [deliveryStep, hconn, reduceCtorEq] at hstep
  | restart => exact absurd hkeeps Bool.false_ne_true

variable (ch)

/-- **Exactly-once delivery.** Within one server lifetime, in every run of publications,
heartbeats, reads, drops and reconnects in which the buffer reaches back, at each reconnect, to
the first visible event the client has missed, the consumer gets every visible event published
after the first frame it consumed once and in order. -/
theorem delivered_exactly_once (as : List (DeliveryAction E)) (t : DeliveryState E)
    (h : Run (Guarded (fun s a => keepsUp ch s a = true) (deliveryStep ch)) .init as t) :
    ExactlyOnce ch t :=
  (h.invariant (I := ExactInv ch) (fun _ _ _ hI hstep => exactInv_step hI hstep)
    exactInv_init).exactlyOnce

/-- A consumer that gets two events over three connections, one of them cut inside a frame. -/
theorem delivered_over_reconnects :
    ∃ t, Run (Guarded (fun s a => keepsUp (notices 2) s a = true) (deliveryStep (notices 2))) .init
      [.connect, .publish .connecting, .read 200, .publish .connected, .heartbeat 0, .read 60, .cut,
        .publish .permissions, .connect, .read 30, .cut, .connect, .read 200] t ∧
      handed (notices 2) t.consumed.tail = [(some (js "2"), .connected)] ∧
      ExactlyOnce (notices 2) t := by
  obtain ⟨t, hrun, ht⟩ := exists_guarded_run_of_exec
    (fun s a => keepsUp (notices 2) s a = true) (deliveryStep (notices 2)) .init
    [.connect, .publish .connecting, .read 200, .publish .connected, .heartbeat 0, .read 60, .cut,
      .publish .permissions, .connect, .read 30, .cut, .connect, .read 200]
    (fun t => handed (notices 2) t.consumed.tail = [(some (js "2"), .connected)])
    (by decide)
  exact ⟨t, hrun, by simpa using ht, delivered_exactly_once (notices 2) _ t hrun⟩

/-- The same with the bound on the events published since the connection was lost. -/
def shortGap (s : DeliveryState E) : DeliveryAction E → Bool
  | .publish _ => s.nextId < 2 ^ 53
  | .connect => s.leftAt.all fun n => s.published.length - n < ch.bufferSize
  | .restart => false
  | .heartbeat _ | .read _ | .cut => true

/-- Two gaps of two events with a buffer of three. The replay after the first gap is cut, and by
the second reconnect its first event has left the buffer. -/
theorem cut_replay_evicted :
    ∃ t, Run (Guarded (fun s a => shortGap (notices 3) s a = true) (deliveryStep (notices 3))) .init
      [.connect, .publish .connecting, .read 200, .cut, .publish .connected, .publish .connecting,
        .connect, .cut, .publish .connected, .publish .connecting, .connect, .read 400] t ∧
      ¬ ExactlyOnce (notices 3) t := by
  obtain ⟨t, hrun, ht⟩ := exists_guarded_run_of_exec
    (fun s a => shortGap (notices 3) s a = true) (deliveryStep (notices 3)) .init
    [.connect, .publish .connecting, .read 200, .cut, .publish .connected, .publish .connecting,
      .connect, .cut, .publish .connected, .publish .connecting, .connect, .read 400]
    (fun t => (t.connection.any fun conn => conn.pending = []) &&
      t.consumed = [⟨0, some (js "1"), .connecting⟩, ⟨0, some (js "3"), .connecting⟩,
        ⟨0, some (js "4"), .connected⟩, ⟨0, some (js "5"), .connecting⟩] &&
      due (notices 3) t 1 = [(some (js "2"), .connected), (some (js "3"), .connecting),
        (some (js "4"), .connected), (some (js "5"), .connecting)])
    (by decide)
  refine ⟨t, hrun, fun hlaw => ?_⟩
  simp only [Bool.and_eq_true, decide_eq_true_eq] at ht
  obtain ⟨⟨hconn, hconsumed⟩, hdue⟩ := ht
  obtain ⟨conn, hconn, hdone⟩ := (Option.any_eq_true _ _).mp hconn
  rw [ExactlyOnce, hconsumed] at hlaw
  obtain ⟨id, hid, -, hall⟩ := hlaw
  have hone : id = 1 := Option.some.inj (hid.symm.trans (by decide))
  have hgot := hall conn hconn (by simpa using hdone)
  rw [hone, hdue] at hgot
  exact absurd hgot (by decide)

end LocalCast.Events.Resume
