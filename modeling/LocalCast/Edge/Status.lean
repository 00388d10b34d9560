import LocalCast.Foundations.JsString

/-!
The status of the edge and the state machine it follows: `internal/edge/state.go`.

* `EdgeState`, `canTransition`: the seven states and the table of legal moves.
* `EdgeStatus`, `clearStaleFields`, `transition`: the published snapshot and how a move
  changes it; a move outside the table changes nothing.
* `Write`, `EdgeStatus.apply`: the setters of `StatusStore`, each as one value, and what it
  makes of a snapshot.
* `apply_stopped`, `apply_starting`: the two writes that leave nothing of what was before.
-/

namespace LocalCast.Edge

open JsString

/-! ### The state machine -/

/-- `EdgeState`. -/
inductive EdgeState
  | stopped
  | starting
  | loginRequired
  | connecting
  | obtainingCertificate
  | connected
  | error
  deriving DecidableEq, Repr

/-- `legalTransitions`. -/
def legalTransitions : EdgeState → List EdgeState
  | .stopped => []
  | .starting => [.loginRequired, .connecting]
  | .loginRequired => [.connecting, .obtainingCertificate, .connected]
  | .connecting => [.loginRequired, .obtainingCertificate, .connected]
  | .obtainingCertificate => [.connected, .loginRequired]
  | .connected => [.obtainingCertificate, .connecting, .loginRequired]
  | .error => []

/-- `universalTargets`. -/
def universalTargets : List EdgeState := [.error, .stopped, .starting]

/-- `CanTransition`. -/
def canTransition (src dst : EdgeState) : Bool :=
  src = dst || universalTargets.contains dst || (legalTransitions src).contains dst

/-- A sign-in prompt is refused from the two states that have no moves of their own. -/
lemma canTransition_loginRequired {src : EdgeState} :
    canTransition src .loginRequired = true ↔ src ≠ .stopped ∧ src ≠ .error := by
  cases src <;> decide

lemma canTransition_connected {src : EdgeState} : canTransition src .connected = true ↔
    src ≠ .stopped ∧ src ≠ .starting ∧ src ≠ .error := by
  cases src <;> decide

lemma canTransition_obtainingCertificate {src : EdgeState} :
    canTransition src .obtainingCertificate = true ↔
      src ≠ .stopped ∧ src ≠ .starting ∧ src ≠ .error := by
  cases src <;> decide

/-! ### The snapshot -/

/-- `EdgeStatus`, less the time it was last changed. -/
@[ext]
structure EdgeStatus where
  state : EdgeState
  host : Option JsString
  funnelURL : Option JsString
  loginURL : Option JsString
  errorCode : Option JsString
  errorMessage : Option JsString
  certExpiresAt : Option ℤ
  peers : ℕ
  deriving DecidableEq, Repr

/-- The snapshot that holds a state and nothing else. -/
def EdgeStatus.fresh (state : EdgeState) : EdgeStatus :=
  ⟨state, none, none, none, none, none, none, 0⟩

@[simp] lemma EdgeStatus.fresh_state (state : EdgeState) :
    (EdgeStatus.fresh state).state = state := rfl

/-- `clearStaleFields`. -/
def clearStaleFields (st : EdgeStatus) (dst : EdgeState) : EdgeStatus :=
  let st := if dst ≠ .loginRequired then { st with loginURL := none } else st
  let st := if dst ≠ .error then { st with errorCode := none, errorMessage := none } else st
  if dst = .stopped ∨ dst = .starting then
    { st with host := none, funnelURL := none, certExpiresAt := none, peers := 0 }
  else st

/-- `StatusStore.Transition`: none where the move is not in the table. -/
def transition (st : EdgeStatus) (dst : EdgeState) (change : EdgeStatus → EdgeStatus) :
    Option EdgeStatus :=
  if canTransition st.state dst then
    some { change (clearStaleFields { st with state := dst } dst) with state := dst }
  else none

/-- `StatusStore.Update`. -/
def update (st : EdgeStatus) (change : EdgeStatus → EdgeStatus) : EdgeStatus :=
  { change st with state := st.state }

/-- A Go string that stands for an absent value where it is empty. -/
def nonEmpty (s : JsString) : Option JsString := if s = [] then none else some s

/-- The setters of `StatusStore`. -/
inductive Write
  | starting
  | connecting
  | loginRequired (loginURL : JsString)
  | obtainingCertificate
  | connected (host funnelURL : JsString) (certExpiresAt : Option ℤ)
  | error (code message : JsString)
  | stopped
  | host (name : JsString)
  | peers (n : ℕ)
  | certExpiry (expires : Option ℤ)
  deriving DecidableEq, Repr

/-- The state a write moves to; none for the three that move the machine nowhere. -/
def Write.target : Write → Option EdgeState
  | .starting => some .starting
  | .connecting => some .connecting
  | .loginRequired _ => some .loginRequired
  | .obtainingCertificate => some .obtainingCertificate
  | .connected .. => some .connected
  | .error .. => some .error
  | .stopped => some .stopped
  | .host _ | .peers _ | .certExpiry _ => none

/-- What a write changes in the snapshot beside its state. -/
def Write.mutate : Write → EdgeStatus → EdgeStatus
  | .loginRequired url, st => if url ≠ [] then { st with loginURL := some url } else st
  | .connected name funnel expires, st =>
      { st with
        host := if name ≠ [] then some name else st.host
        funnelURL := nonEmpty funnel
        certExpiresAt := expires }
  | .error code message, st =>
      { st with errorCode := some code, errorMessage := some message }
  | .host name, st => { st with host := nonEmpty name }
  | .peers n, st => { st with peers := n }
  | .certExpiry expires, st => { st with certExpiresAt := expires }
  | _, st => st

/-- A setter called on a snapshot: none where the state machine refuses it. -/
def EdgeStatus.apply (st : EdgeStatus) (w : Write) : Option EdgeStatus :=
  match w.target with
  | some dst => transition st dst w.mutate
  | none => some (update st w.mutate)

/-- `loginURLOf`. -/
def loginURLOf (st : EdgeStatus) : JsString :=
  if st.state ≠ .loginRequired then [] else st.loginURL.getD []

/-! ### What a write leaves -/

/-- A write is refused exactly where its move is not in the table. -/
lemma apply_eq_none_iff {st : EdgeStatus} {w : Write} :
    st.apply w = none ↔ ∃ dst, w.target = some dst ∧ canTransition st.state dst = false := by
  rw [EdgeStatus.apply]
  cases w.target with
  | none => simp
  | some dst => simp [transition]

/-- A write that is not refused leaves the state it moves to. -/
lemma state_of_apply {st st' : EdgeStatus} {w : Write} (h : st.apply w = some st') :
    st'.state = w.target.getD st.state := by
  rw [EdgeStatus.apply] at h
  cases ht : w.target with
  | none =>
      rw [ht] at h
      cases h
      rfl
  | some dst =>
      simp only [ht, transition] at h
      split_ifs at h
      cases h
      rfl

lemma isSome_apply (st : EdgeStatus) (w : Write)
    (h : ∀ dst, w.target = some dst → canTransition st.state dst = true) :
    ∃ st', st.apply w = some st' := by
  rw [← Option.ne_none_iff_exists']
  intro hnone
  obtain ⟨dst, ht, hc⟩ := apply_eq_none_iff.mp hnone
  simp [h dst ht] at hc

lemma canTransition_stopped (src : EdgeState) : canTransition src .stopped = true := by
  cases src <;> rfl

lemma canTransition_starting (src : EdgeState) : canTransition src .starting = true := by
  cases src <;> rfl

lemma canTransition_error (src : EdgeState) : canTransition src .error = true := by
  cases src <;> rfl

/-- `SetStopped` leaves nothing of what was before. -/
@[simp] lemma apply_stopped (st : EdgeStatus) : st.apply .stopped = some (.fresh .stopped) := by
  simp [EdgeStatus.apply, Write.target, transition, canTransition_stopped, clearStaleFields,
    Write.mutate, EdgeStatus.fresh]

/-- `SetStarting` leaves nothing of what was before. -/
@[simp] lemma apply_starting (st : EdgeStatus) :
    st.apply .starting = some (.fresh .starting) := by
  simp [EdgeStatus.apply, Write.target, transition, canTransition_starting, clearStaleFields,
    Write.mutate, EdgeStatus.fresh]

end LocalCast.Edge
