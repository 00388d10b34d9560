import LocalCast.Client.Failover
import LocalCast.Db.Schema
import LocalCast.Foundations.Runs

/-!
`SessionManager` of `client-core`, its token store and the refresh route of the server, cut
where a call awaits the transport or the store.

* `StoredSession`, `Pending`: the session, and where a call waits.
* `SessionState`: the manager's fields, the store, the calls, and of the server which refresh
  tokens it has rotated away.
* `sessionStep`: calls, the store, the server.
* `SessionLaw`: one refresh in flight, no dead token presented, and at rest memory and store
  agree with the server and the last list of origins.

What the calls return, the logger and the events are left out. A request that reaches the
server is answered; one that does not fails.
-/

namespace LocalCast.Client

open JsString Contract Db Runs

/-! ### Sessions -/

/-- `StoredSession`; the host and the pinned certificate are carried along by every update. -/
structure StoredSession where
  deviceId : JsString
  accessToken : JsString
  refreshToken : JsString
  expiresAt : Time
  baseUrl : Option JsString
  altBaseUrls : Option (List JsString)
deriving DecidableEq

def REFRESH_SKEW_MS : ℕ := 5 * 60000

def isRevocation (code : ErrorCode) : Bool := code = .tokenRevoked || code = .deviceRevoked

def isRefreshable (code : ErrorCode) : Bool := code = .tokenExpired || code = .unauthenticated

/-- The list `updateAlternates` keeps. -/
def alternatesFor (session : StoredSession) (origins : List JsString) : List JsString :=
  (origins.map normaliseBaseUrl).eraseDups.filter fun o => some o ≠ session.baseUrl

/-! ### Calls -/

/-- The answer of the refresh route. -/
inductive RefreshReply where
  | refreshed (accessToken refreshToken : JsString) (expiresAt : Time)
  | refused (code : ErrorCode)
deriving DecidableEq

/-- A call that first awaits `load()`; the clock is read behind it. -/
inductive Waiter where
  | load
  | ensureFresh (now : Time)
  | refreshAfter (staleAccessToken : JsString)
  | updateAlternates (origins : List JsString)
deriving DecidableEq

/-- Where a call waits. A write takes effect in the store (`landed`) before the call goes on. -/
inductive Pending where
  /-- `#performRefresh`: for the answer, which is there once the server has processed it. -/
  | refreshing (known : StoredSession) (reply : Option RefreshReply)
  /-- `updateAlternates` or, with `refresh`, `#performRefresh`: writing `next`, made from `base`. -/
  | writing (base next : StoredSession) (landed refresh : Bool)
  /-- `signOut`, called by `#performRefresh` where `refresh` is set. -/
  | clearing (landed refresh : Bool)
  | adopting (session : StoredSession) (landed : Bool)
deriving DecidableEq

namespace Pending

/-- The call is a run of `#performRefresh`. -/
def isRefresh : Pending → Bool
  | .refreshing .. => true
  | .writing _ _ _ refresh | .clearing _ refresh => refresh
  | .adopting .. => false

/-- Its request is in flight. -/
def inFlight : Pending → Bool
  | .refreshing .. => true
  | _ => false

end Pending

/-- The shared read of the store: what it read, once it has, and who waits for it. -/
structure Loading where
  captured : Option (Option StoredSession)
  waiters : List Waiter

/-- The manager (`memory` is `#session`, none while it is `undefined`), the store, and the
pending calls. Of the server: the refresh tokens it knows of and those it rotated away; the
last one it issued to this session, with the last list of origins that was set; and whether a
token was presented after it had been rotated away. -/
structure SessionState where
  memory : Option (Option StoredSession)
  loading : Option Loading
  refreshing : Option ℕ
  store : Option StoredSession
  calls : ℕ → Option Pending
  nextCall : ℕ
  used : List JsString
  rotated : List JsString
  current : JsString
  alternates : Option (List JsString)
  signedOut : Bool
  stale : Bool

namespace SessionState

/-- The app has just started. -/
def init (stored : Option StoredSession) : SessionState :=
  { memory := none, loading := none, refreshing := none, store := stored, calls := fun _ => none
    nextCall := 0, used := (stored.map StoredSession.refreshToken).toList, rotated := []
    current := (stored.map StoredSession.refreshToken).getD []
    alternates := stored.bind StoredSession.altBaseUrls, signedOut := false, stale := false }

variable (s : SessionState)

/-- A call begins to wait. -/
def begin (p : Pending) : SessionState :=
  { s with calls := Function.update s.calls s.nextCall (some p), nextCall := s.nextCall + 1 }

def goOn (i : ℕ) (p : Pending) : SessionState :=
  { s with calls := Function.update s.calls i (some p) }

/-- A call is over; a run of `#performRefresh` clears the gate. -/
def finish (i : ℕ) (refresh : Bool) : SessionState :=
  { s with
    calls := Function.update s.calls i none
    refreshing := if refresh then none else s.refreshing }

/-- `#refresh`. -/
def refresh (known : StoredSession) : SessionState :=
  match s.refreshing with
  | some _ => s
  | none => { s.begin (.refreshing known none) with refreshing := some s.nextCall }

/-- The synchronous part of `signOut`. -/
def forget : SessionState :=
  { s with memory := some none, refreshing := none, signedOut := true }

/-- A call behind `await this.load()`. -/
def continueWith (session : Option StoredSession) (w : Waiter) : SessionState :=
  match session with
  | none => s
  | some k =>
      match w with
      | .load => s
      | .ensureFresh now => if now + REFRESH_SKEW_MS < k.expiresAt then s else s.refresh k
      | .refreshAfter stale => if k.accessToken = stale then s.refresh k else s
      | .updateAlternates origins =>
          let next := alternatesFor k origins
          let s := { s with alternates := some next }
          if k.altBaseUrls = some next then s
          else s.begin (.writing k { k with altBaseUrls := some next } false false)

/-- A call that starts with `load()`. -/
def call (w : Waiter) : SessionState :=
  match s.memory with
  | some session => s.continueWith session w
  | none =>
      match s.loading with
      | none => { s with loading := some ⟨none, [w]⟩ }
      | some l => { s with loading := some { l with waiters := l.waiters ++ [w] } }

end SessionState

/-! ### Steps -/

inductive SessionAction where
  | call (w : Waiter)
  | adopt (session : StoredSession)
  | signOut
  /-- The read of the store takes place; it resolves, and the calls waiting for it go on. -/
  | captured
  | loaded
  /-- A refresh does not reach the server. -/
  | unreachable (i : ℕ)
  /-- The server answers a refresh: it rotates the token, or it refuses. -/
  | rotate (i : ℕ) (accessToken refreshToken : JsString) (expiresAt : Time)
  | refuse (i : ℕ) (code : ErrorCode)
  /-- The answer arrives. -/
  | response (i : ℕ)
  /-- A write of the store takes effect; the call that waits for it goes on. -/
  | land (i : ℕ)
  | resume (i : ℕ)

def sessionStep (s : SessionState) : SessionAction → Option SessionState
  | .call w => some (s.call w)
  | .adopt session => some (s.begin (.adopting session false))
  | .signOut => some (s.forget.begin (.clearing false false))
  | .captured =>
      match s.loading with
      | some ⟨none, waiters⟩ => some { s with loading := some ⟨some s.store, waiters⟩ }
      | _ => none
  | .loaded =>
      match s.loading with
      | some ⟨some session, waiters⟩ =>
          some (waiters.foldl (fun s w => s.continueWith session w)
            { s with memory := some session, loading := none })
      | _ => none
  | .unreachable i =>
      match s.calls i with
      | some (.refreshing _ none) => some (s.finish i true)
      | _ => none
  | .rotate i accessToken refreshToken expiresAt =>
      match s.calls i with
      | some (.refreshing known none) =>
          -- `redeemRefreshToken` refuses a token it has rotated away; a new one is new
          if known.refreshToken ∈ s.rotated ∨ refreshToken ∈ known.refreshToken :: s.used then none
          else some { s.goOn i (.refreshing known
              (some (.refreshed accessToken refreshToken expiresAt))) with
            used := refreshToken :: known.refreshToken :: s.used
            rotated := known.refreshToken :: s.rotated
            current := if known.refreshToken = s.current then refreshToken else s.current }
      | _ => none
  | .refuse i code =>
      match s.calls i with
      | some (.refreshing known none) =>
          some { s.goOn i (.refreshing known (some (.refused code))) with
            stale := s.stale || known.refreshToken ∈ s.rotated }
      | _ => none
  | .response i =>
      match s.calls i with
      | some (.refreshing known (some (.refreshed accessToken refreshToken expiresAt))) =>
          some (s.goOn i (.writing known { known with
            accessToken := accessToken, refreshToken := refreshToken
            expiresAt := expiresAt } false true))
      | some (.refreshing _ (some (.refused code))) =>
          if isRevocation code ∨ isRefreshable code then
            some (s.forget.goOn i (.clearing false true))
          else some (s.finish i true)
      | _ => none
  | .land i =>
      match s.calls i with
      | some (.writing base next false refresh) =>
          some { s.goOn i (.writing base next true refresh) with store := some next }
      | some (.clearing false refresh) =>
          some { s.goOn i (.clearing true refresh) with store := none }
      | some (.adopting session false) =>
          -- nobody has seen the tokens of a session before it is adopted
          if session.refreshToken ∈ s.used then none
          else some { s.goOn i (.adopting session true) with
            store := some session, used := session.refreshToken :: s.used
            current := session.refreshToken }
      | _ => none
  | .resume i =>
      match s.calls i with
      | some (.writing _ next true refresh) =>
          some { s.finish i refresh with memory := some (some next) }
      | some (.clearing true refresh) => some (s.finish i refresh)
      | some (.adopting session true) =>
          some { s.finish i false with
            memory := some (some session), alternates := session.altBaseUrls, signedOut := false }
      | _ => none

/-! ### The law -/

/-- No call is pending. -/
def SessionState.Idle (s : SessionState) : Prop := s.loading = none ∧ ∀ i, s.calls i = none

/-- At most one refresh is in flight, no token was presented after it had been rotated away,
and at rest, unless signed out, memory (where it was read) and store hold the last token the
server issued to the session and the last list of origins. -/
structure SessionLaw (s : SessionState) : Prop where
  single : ∀ i j p q, s.calls i = some p → s.calls j = some q → p.inFlight → q.inFlight → i = j
  fresh : s.stale = false
  settled : s.Idle → s.signedOut = false →
    (s.memory = none ∨ s.memory = some s.store) ∧
      ∀ m, s.store = some m → m.refreshToken = s.current ∧ m.altBaseUrls = s.alternates

/-- What a write-back or an install finds is what it started from. -/
def undisturbed (s : SessionState) : SessionAction → Bool
  | .loaded => s.memory = none
  | .land i =>
      match s.calls i with
      | some (.writing base _ _ _) => s.memory = some (some base) ∧ s.store = some base
      | some (.clearing ..) => s.memory = some none
      | _ => true
  | .resume i =>
      match s.calls i with
      | some (.writing base next _ refresh) => s.memory = some (some base) ∧
          s.store = some next ∧ (refresh || next.altBaseUrls = s.alternates)
      | some (.adopting session _) => s.store = some session ∧
          (List.range s.nextCall).all fun j =>
            match s.calls j with
            | some p => !p.isRefresh || s.refreshing = some j
            | none => true
      | _ => true
  | _ => true

end LocalCast.Client
