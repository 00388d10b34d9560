import LocalCast.Contract.Errors
import LocalCast.Foundations.Routing

/-!
`auth/middleware.ts` and the guard chain `createServer` builds in front of the routers.

* `edgeSecretGuard`, `peerContext`, `loopbackOnly`: the three guards.
* `operatorRoutes`: the operator router, route by route in the order it registers them.
* `App.handle`: the chain a request runs through up to the operator router.
* `handle_eq_operator_iff`: which requests an operator handler is reached by.
-/

namespace LocalCast.Server

open JsString Routing Contract

/-! ### Requests -/

/-- What the guards read of a request: `viaLan` is set by the network-facing listeners
before Express sees the request, `jsonBody` records whether `express.json` accepts the
body. -/
structure Request where
  method : Method
  path : JsString
  headers : List (JsString × JsString)
  remoteAddress : Option JsString
  viaLan : Bool
  jsonBody : Bool

/-- `req.header(name)`: names compare without case, repeated fields are joined. -/
def Request.header (r : Request) (name : JsString) : Option JsString :=
  match (r.headers.filter fun f => lower f.1 = lower name).map Prod.snd with
  | [] => none
  | v :: vs => some (join (js ", ") (v :: vs))

/-! ### The guards -/

/-- `EDGE_SECRET_HEADER`. -/
def edgeSecretHeader : JsString := js "x-lc-edge-secret"

/-- `EDGE_PEER_HEADER`. -/
def edgePeerHeader : JsString := js "x-lc-peer"

/-- `FUNNEL_PEER`. -/
def funnelPeer : JsString := js "funnel"

/-- `secureEquals`: both sides digested, then compared; anything but two strings is
unequal. -/
def secureEquals {δ : Type*} [DecidableEq δ] (sha256 : JsString → δ) :
    Option JsString → Option JsString → Bool
  | some a, some b => sha256 a = sha256 b
  | _, _ => false

/-- `edgeSecretGuard`: the secret, or the LAN listener while sharing over it is allowed. -/
def edgeSecretGuard {δ : Type*} [DecidableEq δ] (sha256 : JsString → δ) (secret : JsString)
    (lanAllowed : Bool) (r : Request) : Except ApiException Unit :=
  if secureEquals sha256 (r.header edgeSecretHeader) (some secret) then .ok ()
  else if lanAllowed && r.viaLan then .ok ()
  else .error ⟨.unauthenticated, "Missing or invalid edge credentials"⟩

/-- `peerContext`: the identity the edge injected, or `funnel`. -/
def peerContext (r : Request) : JsString :=
  match r.header edgePeerHeader with
  | some raw => if (trim raw).length > 0 then trim raw else funnelPeer
  | none => funnelPeer

/-- One to three decimal digits. -/
def isOctet (p : JsString) : Bool :=
  1 ≤ p.length && p.length ≤ 3 && p.all fun c => 48 ≤ c && c ≤ 57

/-- `LOOPBACK_V4`: a `127.` address, possibly mapped into IPv6. -/
def loopbackV4 (a : JsString) : Bool :=
  let a := if a.take 7 = js "::ffff:" then a.drop 7 else a
  match splitOn (fun c => c = 46) a with
  | [p, q, r, s] => p = js "127" && isOctet q && isOctet r && isOctet s
  | _ => false

/-- `isLoopbackAddress`. -/
def isLoopbackAddress : Option JsString → Bool
  | none => false
  | some [] => false
  | some a => a = js "::1" || a = js "::ffff:127.0.0.1" || loopbackV4 a

/-- `loopbackOnly`: nothing that came in on a network-facing listener, and only from a
loopback address. -/
def loopbackOnly (r : Request) : Except ApiException Unit :=
  if r.viaLan || !isLoopbackAddress r.remoteAddress then .error ⟨.notFound, "Not found"⟩
  else .ok ()

/-! ### The operator router -/

/-- The handlers of the operator API. -/
inductive OperatorRoute where
  | readNetworkConfig | writeNetworkConfig
  | listPrinters | refreshPrinters | patchPrinter
  | listFolders | addFolder | patchFolder | deleteFolder | reindexAll | reindexFolder
  | listDevices | listStreams | listCapabilities
  | approveDevice | rejectDevice | revokeDevice | renameDevice | deleteDevice
  | readPermissions | putPermissions | putDevicePermissions | postDevicePermissions
  | mintPairing | readActivity
deriving DecidableEq

/-- `OPERATOR_PREFIX`. -/
def operatorPrefix : JsString := js "/operator"

private def lit (s : String) : Part := .lit (js s)

/-- `createOperatorRouter`: network configuration and printers first, then its own. -/
def operatorRoutes : List (Method × Pattern × OperatorRoute) :=
  [(.get, [lit "network-config"], .readNetworkConfig),
    (.post, [lit "network-config"], .writeNetworkConfig),
    (.get, [lit "printers"], .listPrinters),
    (.post, [lit "printers", lit "refresh"], .refreshPrinters),
    (.patch, [lit "printers", .param], .patchPrinter),
    (.get, [lit "folders"], .listFolders),
    (.post, [lit "folders"], .addFolder),
    (.patch, [lit "folders", .param], .patchFolder),
    (.delete, [lit "folders", .param], .deleteFolder),
    (.post, [lit "folders", lit "reindex"], .reindexAll),
    (.post, [lit "folders", .param, lit "reindex"], .reindexFolder),
    (.get, [lit "devices"], .listDevices),
    (.get, [lit "streams"], .listStreams),
    (.get, [lit "capabilities"], .listCapabilities),
    (.post, [lit "devices", .param, lit "approve"], .approveDevice),
    (.post, [lit "devices", .param, lit "reject"], .rejectDevice),
    (.post, [lit "devices", .param, lit "revoke"], .revokeDevice),
    (.patch, [lit "devices", .param], .renameDevice),
    (.delete, [lit "devices", .param], .deleteDevice),
    (.get, [lit "devices", .param, lit "permissions"], .readPermissions),
    (.put, [lit "permissions"], .putPermissions),
    (.put, [lit "devices", .param, lit "permissions"], .putDevicePermissions),
    (.post, [lit "devices", .param, lit "permissions"], .postDevicePermissions),
    (.post, [lit "pairing"], .mintPairing),
    (.get, [lit "activity"], .readActivity)]

/-- Which operator handler a method and a path name, the guards apart. -/
def operatorRouteOf (method : Method) (path : JsString) : Outcome OperatorRoute :=
  match (stripMount operatorPrefix path).bind routeSegments with
  | none => .unmatched
  | some segs => dispatch method segs operatorRoutes

/-! ### The chain -/

/-- What the chain needs of the running server. `isOwnOrigin` stands for the comparison
with the listeners and certificate names of the moment. -/
structure App (δ : Type*) where
  sha256 : JsString → δ
  edgeSecret : JsString
  lanAllowed : Bool
  isOwnOrigin : JsString → Bool

/-- What the chain does with a request. -/
inductive Handled where
  | malformedBody
  | preflight
  | refused (e : ApiException)
  | malformedParam
  | operator (route : OperatorRoute)
  | rest (peer : JsString)
deriving DecidableEq

/-- A cross-origin preflight from one of the server's own origins. -/
def preflight {δ : Type*} (s : App δ) (method : Method) (origin : Option JsString) : Bool :=
  match origin with
  | some o => s.isOwnOrigin o && method = .options
  | none => false

/-- `createServer`'s chain up to the operator router: `express.json`, `peerContext`, the
cross-origin answer, `edgeSecretGuard`, and under `/operator` first `loopbackOnly`. -/
def App.handle {δ : Type*} [DecidableEq δ] (s : App δ) (r : Request) : Handled :=
  if !r.jsonBody then .malformedBody
  else if preflight s r.method (r.header (js "origin")) then .preflight
  else match edgeSecretGuard s.sha256 s.edgeSecret s.lanAllowed r with
    | .error e => .refused e
    | .ok _ =>
        match stripMount operatorPrefix r.path with
        | none => .rest (peerContext r)
        | some _ =>
            match loopbackOnly r with
            | .error e => .refused e
            | .ok _ =>
                match operatorRouteOf r.method r.path with
                | .unmatched => .rest (peerContext r)
                | .malformed => .malformedParam
                | .handler route => .operator route

lemma edgeSecretGuard_eq_ok_iff {δ : Type*} [DecidableEq δ] (sha256 : JsString → δ)
    (secret : JsString) (lanAllowed : Bool) (r : Request) :
    edgeSecretGuard sha256 secret lanAllowed r = .ok () ↔
      secureEquals sha256 (r.header edgeSecretHeader) (some secret) = true ∨
        (lanAllowed = true ∧ r.viaLan = true) := by
  rw [edgeSecretGuard]
  split_ifs with h1 h2
  · simp [h1]
  · simp [h1, Bool.and_eq_true_iff.mp h2]
  · simpa [h1] using h2

lemma loopbackOnly_eq_ok_iff (r : Request) :
    loopbackOnly r = .ok () ↔ r.viaLan = false ∧ isLoopbackAddress r.remoteAddress = true := by
  rw [loopbackOnly]
  cases r.viaLan <;> cases isLoopbackAddress r.remoteAddress <;> simp

lemma stripMount_of_operatorRouteOf {method : Method} {path : JsString} {route : OperatorRoute}
    (h : operatorRouteOf method path = .handler route) :
    ∃ sub, stripMount operatorPrefix path = some sub := by
  rw [operatorRouteOf] at h
  cases hs : stripMount operatorPrefix path with
  | none => simp [hs] at h
  | some sub => exact ⟨sub, rfl⟩

/-- **An operator handler is reached** exactly by a request with an acceptable body that is
no preflight, carries the secret, came from a loopback address on the loopback listener, and
names the route. The LAN bypass plays no part: it excludes the loopback listener. -/
lemma handle_eq_operator_iff {δ : Type*} [DecidableEq δ] (s : App δ) (r : Request)
    (route : OperatorRoute) :
    s.handle r = .operator route ↔
      r.jsonBody = true ∧ preflight s r.method (r.header (js "origin")) = false ∧
      secureEquals s.sha256 (r.header edgeSecretHeader) (some s.edgeSecret) = true ∧
      r.viaLan = false ∧ isLoopbackAddress r.remoteAddress = true ∧
      operatorRouteOf r.method r.path = .handler route := by
  constructor
  · intro h
    rw [App.handle] at h
    split_ifs at h with hbody hpre
    cases hg : edgeSecretGuard s.sha256 s.edgeSecret s.lanAllowed r with
    | error e => simp [hg] at h
    | ok u =>
        cases hm : stripMount operatorPrefix r.path with
        | none => simp [hg, hm] at h
        | some sub =>
            cases hl : loopbackOnly r with
            | error e => simp [hg, hm, hl] at h
            | ok u' =>
                obtain ⟨hlan, haddr⟩ := (loopbackOnly_eq_ok_iff r).mp hl
                have hsec : secureEquals s.sha256 (r.header edgeSecretHeader)
                    (some s.edgeSecret) = true := by
                  rcases (edgeSecretGuard_eq_ok_iff _ _ _ r).mp hg with hsec | hsec
                  · exact hsec
                  · exact absurd hsec.2 (by simp [hlan])
                cases hr : operatorRouteOf r.method r.path with
                | unmatched => simp [hg, hm, hl, hr] at h
                | malformed => simp [hg, hm, hl, hr] at h
                | handler route' =>
                    simp only [hg, hm, hl, hr, Handled.operator.injEq] at h
                    exact ⟨by simpa using hbody, by simpa using hpre, hsec, hlan, haddr,
                      congrArg _ h⟩
  · rintro ⟨hbody, hpre, hsec, hlan, haddr, hroute⟩
    have hg := (edgeSecretGuard_eq_ok_iff s.sha256 s.edgeSecret s.lanAllowed r).mpr (Or.inl hsec)
    have hl := (loopbackOnly_eq_ok_iff r).mpr ⟨hlan, haddr⟩
    obtain ⟨sub, hm⟩ := stripMount_of_operatorRouteOf hroute
    simp [App.handle, hbody, hpre, hg, hm, hl, hroute]

end LocalCast.Server
