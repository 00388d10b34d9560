import LocalCast.Events.Resume

/-!
Events published while the client is between two connections, over server restarts.

* `GapsDelivered`: once everything written to a connection was read, the consumer has got the
  visible ones of the events that the buffer is long enough for at the reconnect.
* `resumable`: at the reconnect such an event is of the server the client comes back to, and
  numbered above a resume point that the client has.
* `gaps_delivered`: in every run whose reconnects are resumable no such event is lost.
* `gap_lost`: a client without a resume point, and one with the resume point of an earlier
  server.
-/

namespace LocalCast.Events.Resume

open JsString Runs Client ResumableLog

variable {E : Type} (ch : Channel E) {s : DeliveryState E}

/-! ### The law -/

/-- The last events before the client connected, as many as the buffer holds. -/
def recent (s : DeliveryState E) : List (Publication E) :=
  (s.published.take s.connectedAt).drop (s.connectedAt - ch.bufferSize)

/-- The consumer got the event. -/
def Delivered (s : DeliveryState E) (p : Publication E) : Prop :=
  consumedOf p.run p.stored ∈ s.consumed

/-- Of the events published last before the client connected, those that the device may see and
that came while it was between two connections have reached the consumer, once nothing is in
flight. -/
def GapsDelivered (s : DeliveryState E) : Prop :=
  ∀ conn ∈ s.connection, conn.pending = [] → ∀ p ∈ recent ch s, p.between = true →
    ch.visible p.stored.event = true → Delivered s p

/-- At a reconnect, what is owed was published by the present server, above the client's resume
point. -/
def resumable (s : DeliveryState E) : DeliveryAction E → Prop
  | .connect => ∀ p ∈ retained ch.bufferSize s.published, p.between = true →
      ch.visible p.stored.event = true → ¬ Delivered s p →
      p.run = s.run ∧ ((parseLastEventId s.lastEventId).any fun id => id < p.stored.id) = true
  | _ => True

instance [DecidableEq E] (s : DeliveryState E) (a : DeliveryAction E) :
    Decidable (resumable ch s a) :=
  match a with
  | .connect => inferInstanceAs (Decidable (∀ p ∈ retained ch.bufferSize s.published,
      p.between = true → ch.visible p.stored.event = true →
      ¬ consumedOf p.run p.stored ∈ s.consumed → p.run = s.run ∧
        ((parseLastEventId s.lastEventId).any fun id => id < p.stored.id) = true))
  | .publish _ | .heartbeat _ | .read _ | .cut | .restart => isTrue trivial

/-! ### The invariant -/

/-- The buffer holds the last events of the present server, and each event owed on a connection
was consumed or is in flight. -/
structure GapInv (s : DeliveryState E) : Prop where
  buffer : s.buffer = retained ch.bufferSize s.stored
  present : ∀ p ∈ s.log, p.run = s.run
  earlier : ∀ p ∈ s.past, p.run < s.run
  connected : s.connectedAt ≤ s.published.length
  owed : ∀ conn ∈ s.connection, ∃ flight, InFlight ch conn flight ∧
    ∀ p ∈ recent ch s, p.between = true → ch.visible p.stored.event = true →
      Delivered s p ∨ (p.run = s.run ∧ p.stored ∈ flight)

variable {ch}

lemma GapInv.gapsDelivered (h : GapInv ch s) : GapsDelivered ch s := by
  intro conn hconn hdone p hp hbetween hvisible
  obtain ⟨flight, hflight, howed⟩ := h.owed conn hconn
  rcases howed p hp hbetween hvisible with hp | ⟨-, hp⟩
  · exact hp
  · rw [hflight.eq_nil hdone] at hp
    cases hp

/-- An event of the present server among the last published is in the buffer. -/
lemma GapInv.mem_buffer (h : GapInv ch s) {p : Publication E}
    (hp : p ∈ retained ch.bufferSize s.published) (hrun : p.run = s.run) : p.stored ∈ s.buffer := by
  rw [h.buffer, DeliveryState.stored, retained, List.length_map, ← List.map_drop]
  refine List.mem_map_of_mem ?_
  rw [retained, DeliveryState.published, List.length_append, List.drop_append] at hp
  rcases List.mem_append.mp hp with hp | hp
  · have hlt := h.earlier p (List.mem_of_mem_drop hp)
    omega
  · have hdrop : s.past.length + s.log.length - ch.bufferSize - s.past.length =
        s.log.length - ch.bufferSize := by omega
    rwa [hdrop] at hp

/-! ### Steps -/

lemma GapInv.publish (h : GapInv ch s) (event : E) : GapInv ch (publish ch s event) := by
  have hlog : (Resume.publish ch s event).log = s.log ∨
      (Resume.publish ch s event).log = s.log ++ [⟨⟨s.nextId, event⟩, s.run, s.between⟩] := by
    cases hb : isHeartbeat ch event <;> simp [Resume.publish, hb]
  have hconnected := h.connected
  have hpublished : ∃ more, (Resume.publish ch s event).published = s.published ++ more := by
    rcases hlog with hlog | hlog
    · exact ⟨[], by rw [List.append_nil, DeliveryState.published, hlog]; rfl⟩
    · exact ⟨_, by rw [DeliveryState.published, hlog, ← List.append_assoc]; rfl⟩
  obtain ⟨more, hmore⟩ := hpublished
  have hrecent : recent ch (Resume.publish ch s event) = recent ch s := by
    rw [recent, hmore]
    exact congrArg _ (List.take_append_of_le_length hconnected)
  refine ⟨?_, ?_, h.earlier, ?_, ?_⟩
  · cases hb : isHeartbeat ch event with
    | true => simpa [Resume.publish, DeliveryState.stored, hb] using h.buffer
    | false =>
        have hstored : (Resume.publish ch s event).stored = s.stored ++ [⟨s.nextId, event⟩] := by
          simp [Resume.publish, DeliveryState.stored, hb]
        rw [hstored, retained_append, ← h.buffer]
        exact if_neg (by simp [hb])
  · intro p hp
    rcases hlog with hlog | hlog
    · rw [hlog] at hp
      exact h.present p hp
    · rw [hlog] at hp
      rcases List.mem_append.mp hp with hp | hp
      · exact h.present p hp
      · rw [List.mem_singleton.mp hp]
        rfl
  · rw [hmore, List.length_append]
    exact hconnected.trans (Nat.le_add_right _ _)
  · intro conn' hconn'
    rw [hrecent]
    cases hv : ch.visible event with
    | false =>
        have hsame : (Resume.publish ch s event).connection = s.connection := if_neg (by simp [hv])
        rw [hsame] at hconn'
        exact h.owed conn' hconn'
    | true =>
        have hnew : (Resume.publish ch s event).connection = s.connection.map fun conn =>
            { conn.send ch ⟨s.nextId, event⟩ with lastSentId := s.nextId } := if_pos hv
        rw [hnew] at hconn'
        obtain ⟨conn, hconn, rfl⟩ := Option.map_eq_some_iff.mp hconn'
        obtain ⟨flight, hflight, howed⟩ := h.owed conn hconn
        refine ⟨_, (hflight.send _).setLastSentId _, fun p hp hbetween hvisible => ?_⟩
        exact (howed p hp hbetween hvisible).imp id fun hp =>
          ⟨hp.1, List.mem_append_left _ hp.2⟩

/-- What a read takes out of flight has been consumed. -/
lemma GapInv.read (h : GapInv ch s) {conn : Connection} (hconn : s.connection = some conn) (n : ℕ) :
    GapInv ch (readText ch s conn n) := by
  obtain ⟨flight, hflight, howed⟩ := h.owed conn hconn
  obtain ⟨es, rest, conn', rfl, hrest, -, hread⟩ := readText_eq hflight n
  obtain ⟨lastEventId, hfold⟩ := foldl_handle { s with connection := some conn' } es
  rw [hread, hfold]
  refine ⟨h.buffer, h.present, h.earlier, h.connected, ?_⟩
  intro conn'' hconn''
  cases hconn''
  refine ⟨rest, hrest, fun p hp hbetween hvisible => ?_⟩
  rcases howed p hp hbetween hvisible with hdelivered | ⟨hrun, hmem⟩
  · exact .inl (List.mem_append_left _ hdelivered)
  · rcases List.mem_append.mp hmem with hmem | hmem
    · refine .inl (List.mem_append_right _ ?_)
      rw [hrun]
      exact List.mem_map_of_mem hmem
    · exact .inr ⟨hrun, hmem⟩

lemma GapInv.connect (h : GapInv ch s) (hresumable : resumable ch s .connect) :
    GapInv ch { s with
      connection := some (openConnection ch s s.lastEventId), connectedAt := s.published.length } := by
  refine ⟨h.buffer, h.present, h.earlier, le_rfl, ?_⟩
  intro conn hconn
  cases hconn
  refine ⟨_, inFlight_open s s.lastEventId, fun p hp hbetween hvisible => ?_⟩
  have hall : recent ch { s with
      connection := some (openConnection ch s s.lastEventId)
      connectedAt := s.published.length } = retained ch.bufferSize s.published :=
    congrArg _ (List.take_length (l := s.published))
  rw [hall] at hp
  by_cases hdelivered : Delivered s p
  · exact .inl hdelivered
  · obtain ⟨hrun, hid⟩ := hresumable p hp hbetween hvisible hdelivered
    obtain ⟨id, hparse, hlt⟩ := (Option.any_eq_true _ _).mp hid
    refine .inr ⟨hrun, ?_⟩
    rw [replayed, hparse]
    exact List.mem_filter.mpr ⟨h.mem_buffer hp hrun, by simpa [hvisible] using hlt⟩

lemma gapInv_init : GapInv ch (.init : DeliveryState E) := by
  refine ⟨List.drop_nil.symm, ?_, ?_, le_rfl, ?_⟩ <;> simp [DeliveryState.init]

/-- Every step from a state where a reconnect is resumable keeps the invariant. -/
lemma gapInv_step {t : DeliveryState E} {a : DeliveryAction E} (h : GapInv ch s)
    (hstep : Guarded (resumable ch) (deliveryStep ch) s a t) : GapInv ch t := by
  obtain ⟨hresumable, hstep⟩ := hstep
  cases a with
  | publish event =>
      cases hstep
      exact h.publish event
  | heartbeat at_ =>
      obtain ⟨conn, hconn, rfl⟩ := Option.map_eq_some_iff.mp hstep
      obtain ⟨flight, hflight, howed⟩ := h.owed conn hconn
      refine ⟨h.buffer, h.present, h.earlier, h.connected, ?_⟩
      intro conn' hconn'
      cases hconn'
      refine ⟨_, hflight.send _, fun p hp hbetween hvisible => ?_⟩
      exact (howed p hp hbetween hvisible).imp id fun hp => ⟨hp.1, List.mem_append_left _ hp.2⟩
  | read n =>
      obtain ⟨conn, hconn, rfl⟩ := Option.map_eq_some_iff.mp hstep
      exact h.read hconn n
  | cut =>
      obtain ⟨conn, hconn, rfl⟩ := Option.map_eq_some_iff.mp hstep
      exact ⟨h.buffer, h.present, h.earlier, h.connected, by simp⟩
  | connect =>
      cases hconn : s.connection with
      | none =>
          simp only [deliveryStep, hconn] at hstep
          cases hstep
          exact h.connect hresumable
      | some conn =>
          simp only [deliveryStep, hconn, reduceCtorEq] at hstep
  | restart =>
      cases hstep
      refine ⟨List.drop_nil.symm, by simp, ?_, ?_, by simp⟩
      · intro p hp
        rcases List.mem_append.mp hp with hp | hp
        · exact Nat.lt_succ_of_lt (h.earlier p hp)
        · exact Nat.lt_succ_of_le (h.present p hp).le
      · have hconnected := h.connected
        simpa [DeliveryState.published] using hconnected

variable (ch)

/-- **No event of a gap is lost** in any run of publications, connects, drops and restarts in
which at each reconnect what is owed to the client was published by the present server, above a
resume point that the client holds. -/
theorem gaps_delivered (as : List (DeliveryAction E)) (t : DeliveryState E)
    (h : Run (Guarded (resumable ch) (deliveryStep ch)) .init as t) : GapsDelivered ch t :=
  (h.invariant (I := GapInv ch) (fun _ _ _ hI hstep => gapInv_step hI hstep)
    gapInv_init).gapsDelivered

/-- An event of the gap reaches a client with a resume point, over a cut replay. -/
theorem gap_delivered_over_reconnects :
    ∃ t, Run (Guarded (resumable (notices 2)) (deliveryStep (notices 2))) .init
      [.connect, .publish .connecting, .read 200, .cut, .publish .connected, .connect, .read 40, .cut,
        .connect, .read 200] t ∧
      t.consumed = [⟨0, some (js "1"), .connecting⟩, ⟨0, some (js "2"), .connected⟩] ∧
      GapsDelivered (notices 2) t := by
  obtain ⟨t, hrun, ht⟩ := exists_guarded_run_of_exec (resumable (notices 2))
    (deliveryStep (notices 2)) .init
    [.connect, .publish .connecting, .read 200, .cut, .publish .connected, .connect, .read 40, .cut,
      .connect, .read 200]
    (fun t => t.consumed = [⟨0, some (js "1"), .connecting⟩, ⟨0, some (js "2"), .connected⟩])
    (by decide)
  exact ⟨t, hrun, by simpa using ht, gaps_delivered (notices 2) _ t hrun⟩

/-- Nothing is in flight, and an event that was owed has not come. -/
def gapLost [DecidableEq E] (s : DeliveryState E) : Bool :=
  (s.connection.any fun conn => conn.pending = []) && (recent ch s).any fun p =>
    p.between && ch.visible p.stored.event && !s.consumed.contains (consumedOf p.run p.stored)

lemma not_gapsDelivered [DecidableEq E] (h : gapLost ch s = true) : ¬ GapsDelivered ch s := by
  intro hlaw
  simp only [gapLost, Bool.and_eq_true, List.any_eq_true, Bool.not_eq_true', List.contains_eq_mem,
    decide_eq_false_iff_not] at h
  obtain ⟨hconn, p, hp, ⟨hbetween, hvisible⟩, hno⟩ := h
  obtain ⟨conn, hconn, hdone⟩ := (Option.any_eq_true _ _).mp hconn
  exact hno (hlaw conn hconn (by simpa using hdone) p hp hbetween hvisible)

/-- One event in the gap and a buffer of three: lost to a client whose first connection was cut
before a frame arrived, and to one that comes back to another server with a higher id. -/
theorem gap_lost :
    (∃ t, Run (Steps (deliveryStep (notices 3))) .init
      [.connect, .cut, .publish .connected, .connect, .read 400] t ∧
      ¬ GapsDelivered (notices 3) t) ∧
    ∃ t, Run (Steps (deliveryStep (notices 3))) .init
      [.connect, .publish .connecting, .publish .connected, .read 400, .cut, .restart,
        .publish .connected, .connect, .read 400] t ∧
      ¬ GapsDelivered (notices 3) t := by
  constructor
  · obtain ⟨t, hrun, ht⟩ := exists_run_of_exec (deliveryStep (notices 3)) .init
      [.connect, .cut, .publish .connected, .connect, .read 400] (gapLost (notices 3))
      (by decide)
    exact ⟨t, hrun, not_gapsDelivered _ ht⟩
  · obtain ⟨t, hrun, ht⟩ := exists_run_of_exec (deliveryStep (notices 3)) .init
      [.connect, .publish .connecting, .publish .connected, .read 400, .cut, .restart,
        .publish .connected, .connect, .read 400] (gapLost (notices 3)) (by decide)
    exact ⟨t, hrun, not_gapsDelivered _ ht⟩

end LocalCast.Events.Resume
