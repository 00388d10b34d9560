import LocalCast.Foundations.Routing

/-!
`internal/edge/proxy.go`: the reverse proxy that fronts the loopback server.

* `Header`, `del`, `set`: Go's `http.Header`, keyed by canonical names
  (`canonicalMIMEHeaderKey`).
* `ProxyHandler.serveHTTP`: `sanitizeInbound`, the peer lookup, and the `Rewrite` hook of
  the reverse proxy, which strips the two trusted headers again and injects them.
* `fields_serveHTTP_secret`, `fields_serveHTTP_peer`: whatever a client sends, the
  forwarded request carries exactly one secret and one peer, the injected ones.
* `fields_serveHTTP`: every other header the proxy does not own passes as it came.
-/

namespace LocalCast.Edge

open JsString Routing

/-! ### Go's `http.Header` -/

/-- Header fields, each under the key it is stored at. -/
abbrev Header := List (JsString × JsString)

/-- RFC 9110 token characters, the only ones a header name may hold. -/
def validHeaderFieldByte (c : CodeUnit) : Bool :=
  (48 ≤ c && c ≤ 57) || (65 ≤ c && c ≤ 90) || (97 ≤ c && c ≤ 122) ||
    (js "!#$%&'*+-.^_`|~").contains c

/-- The casing loop of `CanonicalMIMEHeaderKey`: upper case at the start and after `-`. -/
def canonicalCase : Bool → JsString → JsString
  | _, [] => []
  | up, c :: cs =>
      (if up then upperUnit c else lowerUnit c) :: canonicalCase (c = 45) cs

/-- `textproto.CanonicalMIMEHeaderKey`. -/
def canonicalMIMEHeaderKey (name : JsString) : JsString :=
  if name.all validHeaderFieldByte then canonicalCase true name else name

def Header.del (h : Header) (name : JsString) : Header :=
  h.filter fun f => f.1 ≠ canonicalMIMEHeaderKey name

def Header.set (h : Header) (name value : JsString) : Header :=
  Header.del h name ++ [(canonicalMIMEHeaderKey name, value)]

/-- The header of an incoming request: `net/http` stores every field under its canonical
key. -/
def readMIMEHeader (wire : List (JsString × JsString)) : Header :=
  wire.map fun f => (canonicalMIMEHeaderKey f.1, f.2)

/-- The values a reader that compares names without case finds under `name`. -/
def fields (h : List (JsString × JsString)) (name : JsString) : List JsString :=
  (h.filter fun f => lower f.1 = lower name).map Prod.snd

lemma lowerUnit_eq_hyphen (c : CodeUnit) : lowerUnit c = 45 ↔ c = 45 := by
  unfold lowerUnit
  split_ifs with h
  · obtain ⟨h1, h2⟩ := h
    rw [← UInt16.toNat_inj, ← UInt16.toNat_inj]
    simp only [UInt16.le_iff_toNat_le, UInt16.toNat_add, UInt16.reduceToNat] at h1 h2 ⊢
    omega
  · rfl

/-- Canonical casing only depends on the name without case, ... -/
lemma canonicalCase_lower (up : Bool) (n : JsString) :
    canonicalCase up (lower n) = canonicalCase up n := by
  induction n generalizing up with
  | nil => rfl
  | cons c cs ih =>
      have hup : (decide (lowerUnit c = 45) : Bool) = decide (c = 45) := by
        simp [lowerUnit_eq_hyphen]
      have hcs := ih (decide (c = 45))
      simp only [lower, List.map_cons, canonicalCase, upperUnit_lowerUnit, lowerUnit_lowerUnit]
      rw [hup]
      exact congrArg _ hcs

/-- ... and keeps it. -/
lemma lower_canonicalCase (up : Bool) (n : JsString) : lower (canonicalCase up n) = lower n := by
  induction n generalizing up with
  | nil => rfl
  | cons c cs ih =>
      have hcs := ih (decide (c = 45))
      simp only [lower, canonicalCase, List.map_cons] at hcs ⊢
      rw [hcs]
      cases up
      · simp [lowerUnit_lowerUnit]
      · simp [lowerUnit_upperUnit]

lemma validHeaderFieldByte_lowerUnit (c : CodeUnit) :
    validHeaderFieldByte (lowerUnit c) = validHeaderFieldByte c := by
  unfold lowerUnit
  split_ifs with h
  · obtain ⟨h1, h2⟩ := h
    have h3 : 97 ≤ c + 32 ∧ c + 32 ≤ 122 := by
      simp only [UInt16.le_iff_toNat_le, UInt16.toNat_add, UInt16.reduceToNat] at h1 h2 ⊢
      omega
    simp [validHeaderFieldByte, h1, h2, h3.1, h3.2]
  · rfl

lemma all_validHeaderFieldByte_lower (n : JsString) :
    (lower n).all validHeaderFieldByte = n.all validHeaderFieldByte := by
  rw [lower, List.all_map]
  exact congrArg (List.all n) (funext validHeaderFieldByte_lowerUnit)

/-- A token is stored under a key that its name without case determines. -/
lemma canonicalMIMEHeaderKey_congr {a b : JsString} (h : lower a = lower b)
    (hb : b.all validHeaderFieldByte = true) :
    canonicalMIMEHeaderKey a = canonicalMIMEHeaderKey b := by
  have ha : a.all validHeaderFieldByte = true := by
    rw [← all_validHeaderFieldByte_lower, h, all_validHeaderFieldByte_lower, hb]
  rw [canonicalMIMEHeaderKey, canonicalMIMEHeaderKey, if_pos ha, if_pos hb,
    ← canonicalCase_lower true a, h, canonicalCase_lower]

lemma lower_canonicalMIMEHeaderKey (n : JsString) :
    lower (canonicalMIMEHeaderKey n) = lower n := by
  rw [canonicalMIMEHeaderKey]
  split_ifs
  · exact lower_canonicalCase _ _
  · rfl

/-- Every field sits under its canonical key. -/
def Canonical (h : Header) : Prop := ∀ f ∈ h, canonicalMIMEHeaderKey f.1 = f.1

lemma canonicalMIMEHeaderKey_idem (n : JsString) :
    canonicalMIMEHeaderKey (canonicalMIMEHeaderKey n) = canonicalMIMEHeaderKey n := by
  by_cases hn : n.all validHeaderFieldByte = true
  · exact canonicalMIMEHeaderKey_congr (lower_canonicalMIMEHeaderKey n) hn
  · have h : canonicalMIMEHeaderKey n = n := by rw [canonicalMIMEHeaderKey, if_neg hn]
    rw [h, h]

lemma canonical_readMIMEHeader (wire : List (JsString × JsString)) :
    Canonical (readMIMEHeader wire) := by
  intro f hf
  obtain ⟨g, -, rfl⟩ := List.mem_map.mp hf
  exact canonicalMIMEHeaderKey_idem g.1

lemma Canonical.del {h : Header} (hc : Canonical h) (name : JsString) :
    Canonical (Header.del h name) := fun f hf => hc f (List.mem_filter.mp hf).1

lemma Canonical.set {h : Header} (hc : Canonical h) (name value : JsString) :
    Canonical (Header.set h name value) := by
  intro f hf
  rcases List.mem_append.mp hf with hf | hf
  · exact hc.del name f hf
  · rw [List.mem_singleton.mp hf]
    exact canonicalMIMEHeaderKey_idem name

/-- After `Del` no reader finds the name, in any casing. -/
lemma fields_del_self {h : Header} (hc : Canonical h) {name : JsString}
    (hn : name.all validHeaderFieldByte = true) : fields (Header.del h name) name = [] := by
  rw [fields, List.map_eq_nil_iff, List.filter_eq_nil_iff]
  intro f hf hlow
  obtain ⟨hmem, hne⟩ := List.mem_filter.mp hf
  have hkey := canonicalMIMEHeaderKey_congr (of_decide_eq_true hlow) hn
  rw [hc f hmem] at hkey
  exact of_decide_eq_true hne hkey

/-- `Del` leaves the other names alone. -/
lemma fields_del_of_ne (h : Header) {name other : JsString} (hne : lower other ≠ lower name) :
    fields (Header.del h name) other = fields h other := by
  rw [fields, fields, Header.del, List.filter_filter]
  refine congrArg _ (List.filter_congr fun f _ => ?_)
  by_cases hf : lower f.1 = lower other
  · have : f.1 ≠ canonicalMIMEHeaderKey name := by
      intro he
      rw [he, lower_canonicalMIMEHeaderKey] at hf
      exact hne hf.symm
    simp [hf, this]
  · simp [hf]

/-- After `Set` a reader finds exactly the value set. -/
lemma fields_set_self {h : Header} (hc : Canonical h) {name : JsString}
    (hn : name.all validHeaderFieldByte = true) (value : JsString) :
    fields (Header.set h name value) name = [value] := by
  have hd := fields_del_self hc hn
  rw [fields] at hd ⊢
  rw [Header.set, List.filter_append, List.map_append, hd]
  simp [lower_canonicalMIMEHeaderKey]

lemma fields_set_of_ne (h : Header) {name other : JsString} (hne : lower other ≠ lower name)
    (value : JsString) : fields (Header.set h name value) other = fields h other := by
  have hd := fields_del_of_ne h hne
  rw [fields] at hd ⊢
  rw [Header.set, List.filter_append, List.map_append, hd]
  simp [lower_canonicalMIMEHeaderKey, Ne.symm hne]

/-! ### The reverse proxy of `net/http/httputil` -/

/-- The hop-by-hop headers of RFC 9110, dropped from every forwarded request. -/
def hopHeaders : List JsString :=
  [js "Connection", js "Proxy-Connection", js "Keep-Alive", js "Proxy-Authenticate",
    js "Proxy-Authorization", js "Te", js "Trailer", js "Transfer-Encoding", js "Upgrade"]

/-- The header names a `Connection` field asks to have removed. -/
def connectionTokens (h : Header) : List JsString :=
  ((fields h (js "Connection")).flatMap fun v =>
    (splitOn (fun c => c = 44) v).map (trimBy fun c => [9, 10, 13, 32].contains c)).filter
      fun t => !t.isEmpty

/-- `removeHopByHopHeaders`: those the request names itself, then the fixed list. -/
def removeHopByHopHeaders (h : Header) : Header :=
  (connectionTokens h ++ hopHeaders).foldl Header.del h

/-- The headers a proxy with a `Rewrite` hook removes before calling it. -/
def forwardedHeaders : List JsString :=
  [js "Forwarded", js "X-Forwarded-For", js "X-Forwarded-Host", js "X-Forwarded-Proto"]

/-- A request as it reaches the edge: from a peer of the tailnet or a Funnel relay. The
wire fields exclude `Host`, which Go keeps apart. `jsonBody` records whether a JSON body
parser accepts the body that travels along. -/
structure Request where
  method : Method
  path : JsString
  host : JsString
  wire : List (JsString × JsString)
  remoteAddr : JsString
  clientIP : JsString
  tls : Bool
  jsonBody : Bool

/-- The request the proxy sends on. -/
structure Forwarded where
  method : Method
  path : JsString
  host : JsString
  header : Header
  jsonBody : Bool

/-! ### The handler -/

/-- `protocol.HeaderEdgeSecret`. -/
def headerEdgeSecret : JsString := js "x-lc-edge-secret"

/-- `protocol.HeaderPeer`. -/
def headerPeer : JsString := js "x-lc-peer"

/-- `protocol.FunnelPeer`. -/
def funnelPeer : JsString := js "funnel"

/-- The proxy handler: the secret it injects and the resolver of peer identities, `none`
where it was built without one. -/
structure ProxyHandler where
  secret : JsString
  peers : Option (JsString → JsString)

/-- `sanitizeInbound`: strip every header the edge is authoritative for. -/
def sanitizeInbound (h : Header) : Header := Header.del (Header.del h headerEdgeSecret) headerPeer

/-- `pr.SetXForwarded`. -/
def setXForwarded (r : Request) (h : Header) : Header :=
  let h := Header.set h (js "X-Forwarded-For") r.clientIP
  let h := Header.set h (js "X-Forwarded-Host") r.host
  Header.set h (js "X-Forwarded-Proto") (if r.tls then js "https" else js "http")

/-- `peerFromContext`. -/
def peerFromContext (p : JsString) : JsString := if p = [] then funnelPeer else p

/-- The `Rewrite` hook: strip again, then inject the trusted values. -/
def rewrite (secret peer : JsString) (r : Request) (h : Header) : Header :=
  let h := setXForwarded r h
  let h := Header.del (Header.del h headerEdgeSecret) headerPeer
  Header.set (Header.set h headerEdgeSecret secret) headerPeer (peerFromContext peer)

/-- The identity `ServeHTTP` resolves for the connection. -/
def ProxyHandler.peer (p : ProxyHandler) (r : Request) : JsString :=
  match p.peers with
  | none => funnelPeer
  | some peers => if peers r.remoteAddr = [] then funnelPeer else peers r.remoteAddr

/-- `proxyHandler.ServeHTTP`: the request the loopback server receives. -/
def ProxyHandler.serveHTTP (p : ProxyHandler) (r : Request) : Forwarded :=
  let inbound := sanitizeInbound (readMIMEHeader r.wire)
  let outbound := forwardedHeaders.foldl Header.del (removeHopByHopHeaders inbound)
  { method := r.method, path := r.path, host := r.host, jsonBody := r.jsonBody,
    header := rewrite p.secret (p.peer r) r outbound }

lemma Canonical.foldl_del {h : Header} (hc : Canonical h) (names : List JsString) :
    Canonical (names.foldl Header.del h) := by
  induction names generalizing h with
  | nil => exact hc
  | cons n ns ih => exact ih (hc.del n)

lemma fields_foldl_del_of_ne {name : JsString} :
    ∀ (names : List JsString) (h : Header), (∀ n ∈ names, lower name ≠ lower n) →
      fields (names.foldl Header.del h) name = fields h name
  | [], _, _ => rfl
  | n :: ns, h, hne => by
      rw [List.foldl_cons, fields_foldl_del_of_ne ns _ fun m hm => hne m (List.mem_cons_of_mem _ hm),
        fields_del_of_ne h (hne n List.mem_cons_self)]

lemma canonical_setXForwarded {h : Header} (hc : Canonical h) (r : Request) :
    Canonical (setXForwarded r h) := ((hc.set _ _).set _ _).set _ _

/-- The header the `Rewrite` hook is given. -/
lemma canonical_outbound (r : Request) :
    Canonical (forwardedHeaders.foldl Header.del
      (removeHopByHopHeaders (sanitizeInbound (readMIMEHeader r.wire)))) :=
  ((((canonical_readMIMEHeader r.wire).del _).del _).foldl_del _).foldl_del _

/-- The forwarded request carries the injected secret, once, whatever the client sent. -/
lemma fields_serveHTTP_secret (p : ProxyHandler) (r : Request) :
    fields (p.serveHTTP r).header headerEdgeSecret = [p.secret] := by
  have hc := ((canonical_setXForwarded (canonical_outbound r) r).del headerEdgeSecret).del headerPeer
  rw [ProxyHandler.serveHTTP, rewrite, fields_set_of_ne _ (by decide),
    fields_set_self hc (by decide)]

/-- The forwarded request carries the resolved peer, once, whatever the client sent. -/
lemma fields_serveHTTP_peer (p : ProxyHandler) (r : Request) :
    fields (p.serveHTTP r).header headerPeer = [peerFromContext (p.peer r)] := by
  have hc := ((canonical_setXForwarded (canonical_outbound r) r).del headerEdgeSecret).del headerPeer
  rw [ProxyHandler.serveHTTP, rewrite, fields_set_self (hc.set _ _) (by decide)]

/-- The names the proxy writes or removes on every request, hop-by-hop ones apart. -/
def ownedHeaders : List JsString := [headerEdgeSecret, headerPeer] ++ forwardedHeaders

/-- Any other header arrives as the hop-by-hop rule left it. -/
lemma fields_serveHTTP (p : ProxyHandler) (r : Request) {name : JsString}
    (hne : ∀ n ∈ ownedHeaders, lower name ≠ lower n) :
    fields (p.serveHTTP r).header name =
      fields (removeHopByHopHeaders (sanitizeInbound (readMIMEHeader r.wire))) name := by
  have hs := hne headerEdgeSecret (by decide)
  have hp := hne headerPeer (by decide)
  have hf : ∀ n ∈ forwardedHeaders, lower name ≠ lower n := fun n hn =>
    hne n (List.mem_append_right _ hn)
  rw [ProxyHandler.serveHTTP, rewrite, fields_set_of_ne _ hp, fields_set_of_ne _ hs,
    fields_del_of_ne _ hp, fields_del_of_ne _ hs, setXForwarded,
    fields_set_of_ne _ (hf _ (by decide)), fields_set_of_ne _ (hf _ (by decide)),
    fields_set_of_ne _ (hf _ (by decide)), fields_foldl_del_of_ne _ _ hf]

end LocalCast.Edge
