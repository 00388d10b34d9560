import LocalCast.Edge.Proxy
import LocalCast.Server.Guards

/-!
The edge in front of the server: which requests of the tailnet or of the Funnel reach the
operator API.

* `arrive`: a forwarded request as the loopback listener receives it, from `127.0.0.1`
  and without the LAN mark.
* `edge_reaches_operator_iff`: a request that came through the edge is dispatched exactly
  as one from the machine itself would be, since the address the guard looks at is the
  proxy's own and the secret is the one the proxy injects.
-/

namespace LocalCast.Server

open JsString Routing

/-- The server and the edge of one installation, started with the same secret. -/
structure Deployment (δ : Type*) where
  server : App δ
  peers : Option (JsString → JsString)

namespace Deployment

variable {δ : Type*} [DecidableEq δ] (d : Deployment δ)

/-- The proxy handler the edge was started with. -/
def proxy : Edge.ProxyHandler := ⟨d.server.edgeSecret, d.peers⟩

/-- A forwarded request on the loopback listener: the socket's peer is the proxy. -/
def arrive (f : Edge.Forwarded) : Request :=
  { method := f.method, path := f.path, headers := f.header,
    remoteAddress := some (js "127.0.0.1"), viaLan := false, jsonBody := f.jsonBody }

/-- What becomes of a request that comes in through the edge. -/
def handleRemote (r : Edge.Request) : Handled := d.server.handle (arrive (d.proxy.serveHTTP r))

/-- The `Origin` a remote request is forwarded with. -/
def forwardedOrigin (r : Edge.Request) : Option JsString :=
  match Edge.fields (Edge.removeHopByHopHeaders
      (Edge.sanitizeInbound (Edge.readMIMEHeader r.wire))) (js "origin") with
  | [] => none
  | v :: vs => some (join (js ", ") (v :: vs))

lemma header_arrive (f : Edge.Forwarded) (name : JsString) :
    (arrive f).header name =
      match Edge.fields f.header name with
      | [] => none
      | v :: vs => some (join (js ", ") (v :: vs)) := rfl

/-- Every forwarded request passes for one that knows the secret. -/
lemma secureEquals_arrive (r : Edge.Request) :
    secureEquals d.server.sha256 ((arrive (d.proxy.serveHTTP r)).header edgeSecretHeader)
      (some d.server.edgeSecret) = true := by
  have h : (arrive (d.proxy.serveHTTP r)).header edgeSecretHeader = some d.server.edgeSecret := by
    rw [header_arrive, show edgeSecretHeader = Edge.headerEdgeSecret from rfl,
      Edge.fields_serveHTTP_secret]
    simp [proxy, join, List.intercalate]
  rw [h]
  simp [secureEquals]

omit [DecidableEq δ] in
lemma header_arrive_origin (r : Edge.Request) :
    (arrive (d.proxy.serveHTTP r)).header (js "origin") = forwardedOrigin r := by
  rw [header_arrive, Edge.fields_serveHTTP _ _ (by decide)]
  rfl

omit [DecidableEq δ] in
/-- Peer identities survive the hop: the server sees the one the edge resolved. -/
lemma header_arrive_peer (r : Edge.Request) :
    (arrive (d.proxy.serveHTTP r)).header edgePeerHeader
      = some (Edge.peerFromContext (d.proxy.peer r)) := by
  rw [header_arrive, show edgePeerHeader = Edge.headerPeer from rfl, Edge.fields_serveHTTP_peer]
  simp [join, List.intercalate]

/-- **The two guards add up to none at the edge**: through it, an operator handler is
reached by every request that names its route with an acceptable body and is no preflight. -/
lemma handleRemote_eq_operator_iff (r : Edge.Request) (route : OperatorRoute) :
    d.handleRemote r = .operator route ↔
      r.jsonBody = true ∧ preflight d.server r.method (forwardedOrigin r) = false ∧
        operatorRouteOf r.method r.path = .handler route := by
  have hloop : isLoopbackAddress (some (js "127.0.0.1")) = true := by decide
  rw [handleRemote, handle_eq_operator_iff, header_arrive_origin]
  constructor
  · rintro ⟨hbody, hpre, -, -, -, hroute⟩
    exact ⟨hbody, hpre, hroute⟩
  · rintro ⟨hbody, hpre, hroute⟩
    exact ⟨hbody, hpre, d.secureEquals_arrive r, rfl, hloop, hroute⟩

/-- **The operator API stays off the edge** exactly for the requests that name none of its
routes, carry a body the parser refuses, or are answered as preflights. -/
theorem edge_keeps_off_operator_iff (r : Edge.Request) :
    (∀ route, d.handleRemote r ≠ .operator route) ↔
      r.jsonBody = false ∨ preflight d.server r.method (forwardedOrigin r) = true ∨
        ∀ route, operatorRouteOf r.method r.path ≠ .handler route := by
  constructor
  · intro h
    by_cases hbody : r.jsonBody = true
    · by_cases hpre : preflight d.server r.method (forwardedOrigin r) = true
      · exact Or.inr (Or.inl hpre)
      · refine Or.inr (Or.inr fun route hroute => h route ?_)
        exact (d.handleRemote_eq_operator_iff r route).mpr ⟨hbody, by simpa using hpre, hroute⟩
    · exact Or.inl (by simpa using hbody)
  · rintro hcond route h
    obtain ⟨hbody, hpre, hroute⟩ := (d.handleRemote_eq_operator_iff r route).mp h
    rcases hcond with hb | hp | hr
    · exact absurd hbody (by simp [hb])
    · exact absurd hp (by simp [hpre])
    · exact hr route hroute

/-- A tailnet peer without any credential lists the devices of the operator API. -/
theorem edge_reaches_operator :
    ¬ ∀ (d : Deployment JsString) (r : Edge.Request) (route : OperatorRoute),
      d.handleRemote r ≠ .operator route := by
  intro h
  let d : Deployment JsString :=
    ⟨⟨id, js "s3cret", false, fun _ => false⟩, some fun _ => js "nPeer"⟩
  let r : Edge.Request :=
    ⟨.get, js "/operator/devices", js "pc.ts.net", [], js "100.64.0.9:1", js "100.64.0.9",
      true, true⟩
  exact h d r .listDevices ((d.handleRemote_eq_operator_iff r .listDevices).mpr (by decide))

end Deployment

end LocalCast.Server
