import LocalCast.Auth.Credentials
import LocalCast.Library.Access

/-!
Server-sent events: the bus (`events/bus.ts`), the stream route (`http/routes/events.ts`) and
the visibility rule of the composition root, beside the auth services whose tables they read.

* `ServerEvent`, `isVisibleTo`, `eventStep`: the functions of the source. Every delivery is
  kept with the authority its device had at that moment.
* `DeliveryLaw`: nothing is delivered after a revocation but its notice, and no event of a
  folder the device may not see.
* `delivered_iff`: a run keeps the law exactly where at each publication and replay nobody who
  was revoked or lost the folder is in the audience.
* `revoked_stream_hears`: a revoked device goes on hearing of the connection.
-/

namespace LocalCast.Events

open JsString Contract Db Runs Auth Library

/-! ### Events -/

/-- What the bus carries; of a print job the id. -/
inductive ServerEvent where
  | printJob (jobId : JsString)
  | connection (state : JsString)
  | device (deviceId : JsString) (status : DeviceStatus)
  | permissions (deviceId : JsString)
  | folder (folderId : JsString) (available : Bool) (lastIndexedAt : Option Time)
  | upload (uploadId : JsString) (receivedBytes totalBytes : ℕ) (status : UploadStatus)
  | heartbeat (at_ : Time)
deriving DecidableEq

structure StoredEvent where
  id : ℕ
  event : ServerEvent

/-- A subscriber of the bus: a stream, its device, and the id its heartbeats carry. `closed`
records that the device was revoked or deleted since the stream was opened. -/
structure Stream where
  id : ℕ
  deviceId : JsString
  lastSentId : ℕ
  closed : Bool

/-- An event written to a stream, the stream as it was, and for the event of a folder the mode
the device had on it. -/
structure Delivery where
  stream : Stream
  sent : StoredEvent
  folderMode : Option AccessMode

/-- The bus and the tables; `wire` is what was delivered, most recent first. -/
structure EventState where
  auth : AuthState
  print_jobs : Table PrintJobRow
  uploads : Table UploadRow
  bufferSize : ℕ
  nextId : ℕ
  buffer : List StoredEvent
  nextSubscriberId : ℕ
  subscribers : List Stream
  wire : List Delivery

namespace EventState

def init (bufferSize : ℕ) : EventState :=
  { auth := .init, print_jobs := .empty, uploads := .empty, bufferSize := bufferSize, nextId := 1
    buffer := [], nextSubscriberId := 1, subscribers := [], wire := [] }

end EventState

/-- `isVisibleTo`. -/
def isVisibleTo (s : EventState) (event : ServerEvent) (deviceId : JsString) : Bool :=
  match event with
  | .printJob jobId => (s.print_jobs.get jobId).any fun row => row.device_id = deviceId
  | .upload uploadId .. => (s.uploads.get uploadId).any fun row => row.device_id = deviceId
  | .device id _ | .permissions id => id = deviceId
  | .folder folderId .. =>
      (s.auth.store.folder_permissions.get (deviceId, folderId)).any fun row => row.mode ≠ .none
  | .connection _ | .heartbeat _ => true

/-- The mode of a device on the folder an event is about. -/
def folderMode (st : AuthStore) (event : ServerEvent) (deviceId : JsString) : Option AccessMode :=
  match event with
  | .folder folderId .. => some (modeFor st deviceId folderId)
  | _ => none

def ServerEvent.isHeartbeat : ServerEvent → Bool
  | .heartbeat _ => true
  | _ => false

/-! ### Steps -/

inductive EventAction where
  /-- A step of the auth services: status, permissions, folders. -/
  | auth (a : Action)
  /-- `PATCH /folders/:id`. -/
  | setEnabled (folderId : JsString) (enabled : Bool)
  /-- Whatever the print queue and the uploads do to their rows. -/
  | setPrintJobs (rows : Table PrintJobRow)
  | setUploads (rows : Table UploadRow)
  | publish (event : ServerEvent)
  /-- `GET /events` with a bearer token. -/
  | connect (bearer : JsString) (lastEventId : Option ℕ) (now : Time)
  | heartbeat (stream : ℕ)
  | disconnect (stream : ℕ)

/-- The stream's device is gone or revoked. -/
def markClosed (st : AuthStore) (stream : Stream) : Stream :=
  { stream with closed :=
      stream.closed || (st.getDevice stream.deviceId).all fun row => row.status = .revoked }

/-- The delivery of a stored event to a stream. -/
def deliver (st : AuthStore) (sent : StoredEvent) (stream : Stream) : Delivery :=
  ⟨stream, sent, folderMode st sent.event stream.deviceId⟩

/-- `publish`. -/
def publish (s : EventState) (event : ServerEvent) : EventState :=
  let sent : StoredEvent := ⟨s.nextId, event⟩
  let buffer := if event.isHeartbeat then s.buffer
    else if s.bufferSize < s.buffer.length + 1 then (s.buffer ++ [sent]).tail
    else s.buffer ++ [sent]
  let heard := s.subscribers.filter fun stream => isVisibleTo s event stream.deviceId
  { s with
    nextId := s.nextId + 1
    buffer := buffer
    subscribers := s.subscribers.map fun stream =>
      if isVisibleTo s event stream.deviceId then { stream with lastSentId := s.nextId }
      else stream
    wire := heard.map (deliver s.auth.store sent) ++ s.wire }

/-- `replay`. -/
def replay (s : EventState) (deviceId : JsString) (afterId : ℕ) : List StoredEvent :=
  s.buffer.filter fun e => afterId < e.id && isVisibleTo s e.event deviceId

/-- The route, for an authenticated device. -/
def openStream (s : EventState) (deviceId : JsString) (lastEventId : Option ℕ) : EventState :=
  let stream : Stream := ⟨s.nextSubscriberId, deviceId, s.nextId - 1, false⟩
  let replayed := match lastEventId with
    | none => []
    | some id => replay s deviceId id
  { s with
    nextSubscriberId := s.nextSubscriberId + 1
    subscribers := s.subscribers ++ [stream]
    wire := replayed.map (fun e => deliver s.auth.store e stream) ++ s.wire }

/-- A step of the auth services seen from the bus, which does not outlive a restart. -/
def withAuth (s : EventState) (a : Action) (auth : AuthState) : EventState :=
  match a with
  | .restart => { EventState.init s.bufferSize with
      auth := auth, print_jobs := s.print_jobs, uploads := s.uploads, wire := s.wire }
  | _ => { s with auth := auth, subscribers := s.subscribers.map (markClosed auth.store) }

@[simp] lemma withAuth_wire (s : EventState) (a : Action) (auth : AuthState) :
    (withAuth s a auth).wire = s.wire := by
  cases a <;> rfl

def eventStep (lib : TokenLibrary) (rt : Runtime) (s : EventState) :
    EventAction → Option EventState
  | .auth a => (step rt s.auth a).map (withAuth s a)
  | .setEnabled folderId enabled =>
      let folders := s.auth.store.shared_folders.updateKey folderId
        fun f => { f with enabled := enabled }
      some { s with auth := s.auth.setStore { s.auth.store with shared_folders := folders } }
  | .setPrintJobs rows => some { s with print_jobs := rows }
  | .setUploads rows => some { s with uploads := rows }
  | .publish event => some (publish s event)
  | .connect bearer lastEventId now =>
      match verifyAccessToken lib s.auth.store bearer now with
      | .error _ => some s
      | .ok identity => some (openStream s identity.id lastEventId)
  -- a heartbeat repeats the last id and is no event of the bus
  | .heartbeat _ => some s
  | .disconnect stream => some { s with subscribers := s.subscribers.filter fun t => t.id ≠ stream }

/-! ### The law -/

/-- The notice a device gets of its own revocation. -/
def ServerEvent.isNotice (event : ServerEvent) (deviceId : JsString) : Bool :=
  event = .device deviceId .revoked

/-- A delivery that should not have been made: after a revocation, or of a folder the device
may not see. -/
def Delivery.lawful (δ : Delivery) : Bool :=
  (!δ.stream.closed || δ.sent.event.isNotice δ.stream.deviceId) && δ.folderMode ≠ some .none

def DeliveryLaw (s : EventState) : Prop := ∀ δ ∈ s.wire, δ.lawful = true

/-- The folder an event is about, if any, is shared and enabled. -/
def folderOpen (s : EventState) : ServerEvent → Bool
  | .folder folderId .. => (s.auth.store.shared_folders.get folderId).any FolderRow.enabled
  | _ => true

/-- Whoever is in the audience of an event was not revoked since its stream was opened, or the
event is the notice of that; and an event about a folder finds a device with a grant on it
only while the folder is enabled. -/
def unheard (lib : TokenLibrary) (s : EventState) : EventAction → Bool
  | .publish event => s.subscribers.all fun stream => !isVisibleTo s event stream.deviceId ||
      ((!stream.closed || event.isNotice stream.deviceId) && folderOpen s event)
  | .connect bearer (some lastEventId) now =>
      match verifyAccessToken lib s.auth.store bearer now with
      | .error _ => true
      | .ok identity => s.buffer.all fun e =>
          !(lastEventId < e.id && isVisibleTo s e.event identity.id) || folderOpen s e.event
  | _ => true

section Law

variable {lib : TokenLibrary} {rt : Runtime} {s t : EventState} {a : EventAction}

/-- A device in the audience of an event about a folder may see it exactly while the folder
is open. -/
lemma folderMode_of_visible {event : ServerEvent} {d : JsString} (h : isVisibleTo s event d) :
    folderMode s.auth.store event d ≠ some .none ↔ folderOpen s event = true := by
  cases event with
  | folder f available lastIndexedAt =>
      obtain ⟨p, hp, hmode⟩ := (Option.any_eq_true _ _).mp h
      have hmode : p.mode ≠ .none := of_decide_eq_true hmode
      rw [folderMode, folderOpen, modeFor, hp]
      cases hrow : s.auth.store.shared_folders.get f with
      | none => simp
      | some row => cases henabled : row.enabled <;> simp [henabled, hmode]
  | _ => simp [folderMode, folderOpen]

lemma deliver_lawful {sent : StoredEvent} {stream : Stream}
    (h : isVisibleTo s sent.event stream.deviceId) :
    (deliver s.auth.store sent stream).lawful = true ↔
      ((!stream.closed || sent.event.isNotice stream.deviceId) &&
        folderOpen s sent.event) = true := by
  rw [Delivery.lawful, Bool.and_eq_true, Bool.and_eq_true, decide_eq_true_eq]
  exact and_congr_right fun _ => folderMode_of_visible h

lemma publish_law (event : ServerEvent) :
    DeliveryLaw (publish s event) ↔ DeliveryLaw s ∧ unheard lib s (.publish event) = true := by
  rw [DeliveryLaw, publish]
  simp only [List.forall_mem_append, List.forall_mem_map, List.mem_filter, unheard,
    List.all_eq_true, and_imp]
  rw [and_comm, DeliveryLaw]
  refine and_congr_right fun _ => forall₂_congr fun stream _ => ?_
  cases hvisible : isVisibleTo s event stream.deviceId with
  | false => simp
  | true =>
      have hlawful : (deliver s.auth.store ⟨s.nextId, event⟩ stream).lawful = true ↔ _ :=
        deliver_lawful hvisible
      rw [hlawful]
      simp

lemma openStream_law (d : JsString) (lastEventId : ℕ) :
    DeliveryLaw (openStream s d (some lastEventId)) ↔ DeliveryLaw s ∧
      ∀ e ∈ s.buffer, lastEventId < e.id → isVisibleTo s e.event d → folderOpen s e.event := by
  rw [DeliveryLaw, openStream]
  simp only [List.forall_mem_append, List.forall_mem_map, replay, List.mem_filter,
    Bool.and_eq_true, decide_eq_true_eq, and_imp]
  rw [and_comm, DeliveryLaw]
  refine and_congr_right fun _ => forall₂_congr fun e _ => forall_congr' fun _ => ?_
  refine forall_congr' fun hvisible => ?_
  have hlawful : (deliver s.auth.store e ⟨s.nextSubscriberId, d, s.nextId - 1, false⟩).lawful =
      true ↔ _ := deliver_lawful hvisible
  rw [hlawful]
  simp

/-- **One step**: the law holds after it exactly where it held before and the step meets the
condition. -/
lemma law_step (h : eventStep lib rt s a = some t) :
    DeliveryLaw t ↔ DeliveryLaw s ∧ unheard lib s a = true := by
  cases a with
  | publish event =>
      obtain rfl := Option.some.inj h
      exact publish_law event
  | connect bearer lastEventId now =>
      rw [eventStep] at h
      cases hv : verifyAccessToken lib s.auth.store bearer now with
      | error e =>
          rw [hv] at h
          obtain rfl := Option.some.inj h
          cases lastEventId <;> simp [unheard, hv]
      | ok identity =>
          rw [hv] at h
          obtain rfl := Option.some.inj h
          cases lastEventId with
          | none => simp [DeliveryLaw, openStream, unheard]
          | some id =>
              rw [openStream_law]
              simp only [unheard, hv, List.all_eq_true]
              refine and_congr_right fun _ => forall₂_congr fun e _ => ?_
              cases isVisibleTo s e.event identity.id <;> simp [imp_iff_not_or]
  | auth a =>
      obtain ⟨u, -, rfl⟩ := Option.map_eq_some_iff.mp h
      simp [DeliveryLaw, unheard]
  | setEnabled _ _ | setPrintJobs _ | setUploads _ | heartbeat _ | disconnect _ =>
      obtain rfl := Option.some.inj h
      simp [DeliveryLaw, unheard]

/-- What is on the wire stays there. -/
lemma law_of_run {as : List EventAction} (h : Run (Steps (eventStep lib rt)) s as t)
    (ht : DeliveryLaw t) : DeliveryLaw s := by
  induction h with
  | nil _ => exact ht
  | cons hstep _ ih => exact ((law_step hstep).mp (ih ht)).1

/-- **Who hears what**: a run keeps the law exactly where each of its steps meets the
condition. -/
theorem delivered_iff {bufferSize : ℕ} {as : List EventAction}
    (h : Run (Steps (eventStep lib rt)) (.init bufferSize) as s) :
    DeliveryLaw s ↔
      Run (Guarded (fun s a => unheard lib s a) (eventStep lib rt)) (.init bufferSize) as s := by
  have hrun {u : EventState} (hu : Run (Steps (eventStep lib rt)) u as s) (hlaw : DeliveryLaw u) :
      DeliveryLaw s ↔ Run (Guarded (fun s a => unheard lib s a) (eventStep lib rt)) u as s := by
    clear h
    induction hu with
    | nil u => exact ⟨fun _ => .nil u, fun _ => hlaw⟩
    | @cons u v w a as hstep hrest ih =>
        constructor
        · intro hw
          have hv : DeliveryLaw v := law_of_run hrest hw
          exact .cons ⟨((law_step hstep).mp hv).2, hstep⟩ ((ih hv).mp hw)
        · intro hg
          cases hg with
          | cons hguard htail =>
              obtain rfl := Option.some.inj (hguard.2.symm.trans hstep)
              exact (ih ((law_step hstep).mpr ⟨hlaw, hguard.1⟩)).mpr htail
  exact hrun h (by simp [DeliveryLaw, EventState.init])

end Law

/-! ### Concrete runs -/

/-- A device is paired and opens its stream. -/
def listening : List EventAction :=
  pairedDevice.map .auth ++ [.connect (plainSign ⟨js "d", 1, 0, 900⟩) none 5]

theorem delivered_iff_listening : ∃ s,
    Run (Steps (eventStep plainLibrary plainRuntime)) (.init 256)
      (listening ++ [.publish (.connection (js "connected"))]) s ∧
    s.wire.length = 1 ∧ (DeliveryLaw s ↔
      Run (Guarded (fun s a => unheard plainLibrary s a) (eventStep plainLibrary plainRuntime))
        (.init 256) (listening ++ [.publish (.connection (js "connected"))]) s) := by
  obtain ⟨s, hrun, hs⟩ := exists_run_of_exec (eventStep plainLibrary plainRuntime) (.init 256)
    (listening ++ [.publish (.connection (js "connected"))]) (fun s => s.wire.length = 1)
    (by decide +kernel)
  exact ⟨s, hrun, of_decide_eq_true hs, delivered_iff hrun⟩

/-- The device is revoked, and the stream it opened before hears of the connection. -/
theorem revoked_stream_hears : ∃ s,
    Run (Steps (eventStep plainLibrary plainRuntime)) (.init 256)
      (listening ++ [.auth (.revoke (js "d")), .publish (.connection (js "connected"))]) s ∧
    ¬ DeliveryLaw s := by
  obtain ⟨s, hrun, hs⟩ := exists_run_of_exec (eventStep plainLibrary plainRuntime) (.init 256)
    (listening ++ [.auth (.revoke (js "d")), .publish (.connection (js "connected"))])
    (fun s => s.wire.any fun δ => !δ.lawful) (by decide +kernel)
  obtain ⟨δ, hδ, hlawful⟩ := List.any_eq_true.mp hs
  exact ⟨s, hrun, fun hlaw => by simp [hlaw δ hδ] at hlawful⟩

end LocalCast.Events
