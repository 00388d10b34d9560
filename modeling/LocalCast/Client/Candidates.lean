import LocalCast.Client.Failover

/-!
The candidates of a call through `OriginFailoverTransport`: which addresses it tries, in which
order and how far, and which of them it keeps as the active one.

* `mem_candidates`, `candidates_nodup`, `head?_candidates`: what `#candidates` is.
* `Tried`: what the loop of `#attempt` does with the candidates; `tried_attemptEach` is the
  induction over them.
* `CandidateLaw`, `candidateLaw`: a call as a whole.
-/

namespace LocalCast.Client

open JsString Contract

variable {T : Type}

/-! ### The lists -/

lemma mem_unique_iff {v : JsString} {vs : List JsString} : v ∈ unique vs ↔ v ≠ [] ∧ v ∈ vs := by
  induction vs with
  | nil => simp [unique]
  | cons w ws ih =>
      rw [unique, List.mem_cons]
      split_ifs with hw
      · rw [ih, hw]
        tauto
      · rw [List.mem_cons, List.mem_filter, ih, decide_eq_true_eq]
        constructor
        · rintro (rfl | ⟨⟨hv, hmem⟩, -⟩)
          · exact ⟨hw, .inl rfl⟩
          · exact ⟨hv, .inr hmem⟩
        · rintro ⟨hv, hmem⟩
          by_cases heq : v = w
          · exact .inl heq
          · exact .inr ⟨⟨hv, hmem.resolve_left heq⟩, heq⟩

namespace Failover

variable (f : Failover) (alternates : List JsString)

/-- The active address, the alternates and the primary one; an empty one is none. -/
lemma mem_candidates {origin : JsString} :
    origin ∈ f.candidates alternates ↔ origin ≠ [] ∧
      (origin = f.active ∨ origin ∈ alternates.map normaliseBaseUrl ∨ origin = f.primary) := by
  rw [candidates, mem_unique_iff, List.cons_append, List.mem_cons, List.mem_append,
    List.mem_singleton]

lemma mem_knownOrigins {origin : JsString} :
    origin ∈ f.knownOrigins alternates ↔ origin ∈ f.candidates alternates := by
  rw [mem_candidates, knownOrigins, mem_unique_iff, List.mem_cons, List.mem_cons]
  tauto

lemma candidates_nodup : (f.candidates alternates).Nodup := unique_nodup _

/-- The active address comes first. -/
lemma head?_candidates (h : f.active ≠ []) :
    (f.candidates alternates).head? = some f.active := by
  rw [candidates, List.cons_append, unique, if_neg h, List.head?_cons]

/-- `request`. -/
def request (net : Network T) (request : TransportRequest) : Call T × Failover :=
  attempt net alternates f request

/-- `stream`, which the inner transport may not have. -/
def stream (net : Option (Network T)) (request : TransportRequest) : Call T × Failover :=
  match net with
  | none => (⟨[], .error (some (.typed .internal))⟩, f)
  | some net => attempt net alternates f request

end Failover

/-! ### The loop -/

/-- What is made of the candidates, for one request and the path it has behind each of them. -/
structure Tried (request : TransportRequest) (path : JsString) (candidates : List JsString)
    (call : Call T) (answered : Option JsString) : Prop where
  /-- The first of them are tried in order, each with the request as it is but for its origin. -/
  sent : ∃ tried, tried <+: candidates ∧
    call.exchanges.map (fun e => e.request) = tried.map fun origin => request.at origin path
  begun : call.exchanges ≠ []
  /-- Behind an attempt comes another only if it failed at the network level. -/
  stops : ∀ e ∈ call.exchanges.dropLast, e.retried = true
  /-- A response is the one that the last attempt was answered with. -/
  response : ∀ response, call.result = .ok response → ∃ last ∈ call.exchanges.getLast?,
    last.outcome.delivery = .answered response ∧
      ∃ origin, answered = some origin ∧ last.request = request.at origin path
  /-- An error is that of the last attempt; after a network failure no candidate is left. -/
  error : ∀ error, call.result = .error error → answered = none ∧
    ∃ last ∈ call.exchanges.getLast?, ∃ e, error = some e ∧ last.outcome.result = .error e ∧
      (isNetworkFailure e last.outcome.aborted = true →
        call.exchanges.map (fun e => e.request) = candidates.map fun origin =>
          request.at origin path)

section Loop

variable {net : Network T} {request : TransportRequest} {path : JsString}

lemma Outcome.delivery_of_result {o : Outcome T} {response : T} (h : o.result = .ok response) :
    o.delivery = .answered response := by
  unfold result at h
  cases hd : o.delivery <;> rw [hd] at h <;> cases h
  rfl

/-- One attempt that settles the call. -/
lemma tried_last {n : ℕ} {origin : JsString} {rest : List JsString} {answered : Option JsString}
    {result : Except (Option TransportError) T}
    (hok : ∀ response, result = .ok response →
      (net n (request.at origin path)).result = .ok response ∧ answered = some origin)
    (herror : ∀ error, result = .error error → answered = none ∧
      ∃ e, error = some e ∧ (net n (request.at origin path)).result = .error e ∧
        (isNetworkFailure e (net n (request.at origin path)).aborted = true → rest = [])) :
    Tried request path (origin :: rest)
      ⟨[⟨request.at origin path, net n (request.at origin path)⟩], result⟩ answered where
  sent := ⟨[origin], ⟨rest, rfl⟩, rfl⟩
  begun := by simp
  stops := by simp
  response := by
    intro response h
    obtain ⟨hresult, hanswered⟩ := hok response h
    exact ⟨_, rfl, Outcome.delivery_of_result hresult, origin, hanswered, rfl⟩
  error := by
    intro error h
    obtain ⟨hanswered, e, he, hresult, hrest⟩ := herror error h
    refine ⟨hanswered, _, rfl, e, he, hresult, fun hfail => ?_⟩
    rw [hrest hfail]
    rfl

/-- An attempt that failed at the network level, and what is made of the candidates behind it. -/
lemma Tried.cons {candidates : List JsString} {call : Call T} {answered : Option JsString}
    (h : Tried request path candidates call answered) {e : Exchange T} {origin : JsString}
    (hrequest : e.request = request.at origin path) (hretried : e.retried = true) :
    Tried request path (origin :: candidates)
      { call with exchanges := e :: call.exchanges } answered := by
  have hlast : (e :: call.exchanges).getLast? = call.exchanges.getLast? := by
    obtain ⟨e', es, hes⟩ := List.exists_cons_of_ne_nil h.begun
    rw [hes, List.getLast?_cons_cons]
  obtain ⟨tried, hprefix, hsent⟩ := h.sent
  refine ⟨⟨origin :: tried, List.cons_prefix_cons.mpr ⟨rfl, hprefix⟩, ?_⟩, by simp, ?_, ?_, ?_⟩
  · rw [List.map_cons, List.map_cons, hsent, hrequest]
  · intro e' he'
    rcases mem_dropLast_cons he' with rfl | he'
    · exact hretried
    · exact h.stops e' he'
  · intro response hresult
    rw [hlast]
    exact h.response response hresult
  · intro error hresult
    obtain ⟨hanswered, last, hmem, e', he', hlastresult, hall⟩ := h.error error hresult
    refine ⟨hanswered, last, hlast ▸ hmem, e', he', hlastresult, fun hfail => ?_⟩
    rw [List.map_cons, List.map_cons, hrequest, hall hfail]

/-- The loop of `#attempt` over candidates of which there is one. -/
lemma tried_attemptEach (n : ℕ) (origin : JsString) (rest : List JsString)
    (lastError : Option TransportError) :
    Tried request path (origin :: rest)
      (attemptEach net request path n (origin :: rest) lastError).1
      (attemptEach net request path n (origin :: rest) lastError).2 := by
  have hok {n : ℕ} {origin : JsString} {rest : List JsString} {response : T}
      (hresult : (net n (request.at origin path)).result = .ok response) :
      Tried request path (origin :: rest)
        ⟨[⟨request.at origin path, net n (request.at origin path)⟩], .ok response⟩
        (some origin) :=
    tried_last (fun r hr => ⟨hresult.trans (Except.ok.inj hr ▸ rfl), rfl⟩)
      fun e he => (by cases he)
  have herror {n : ℕ} {origin : JsString} {rest : List JsString} {e : TransportError}
      (hresult : (net n (request.at origin path)).result = .error e)
      (hrest : isNetworkFailure e (net n (request.at origin path)).aborted = true → rest = []) :
      Tried request path (origin :: rest)
        ⟨[⟨request.at origin path, net n (request.at origin path)⟩], .error (some e)⟩ none :=
    tried_last (fun r hr => (by cases hr))
      fun e' he' => ⟨rfl, e, (Except.error.inj he').symm, hresult, hrest⟩
  induction rest generalizing n origin lastError with
  | nil =>
      rw [attemptEach]
      dsimp only
      split
      case h_1 response hresult => exact hok hresult
      case h_2 e hresult =>
        split_ifs
        · exact herror hresult fun _ => rfl
        · exact herror hresult fun _ => rfl
  | cons next rest ih =>
      rw [attemptEach]
      dsimp only
      split
      case h_1 response hresult => exact hok hresult
      case h_2 e hresult =>
        split_ifs with hfail
        · have hretried : (⟨request.at origin path, net n (request.at origin path)⟩ :
              Exchange T).retried = true := by
            unfold Exchange.retried
            rw [hresult]
            exact hfail
          exact (ih (n + 1) next (some e)).cons rfl hretried
        · exact herror hresult fun h => absurd h hfail

end Loop

/-! ### The call -/

/-- A URL of an address: the address itself, or a path of it. -/
def Under (url origin : JsString) : Bool := url = origin || (origin ++ [47]).isPrefixOf url

lemma append_drop_of_under {url origin : JsString} (h : Under url origin = true) :
    origin ++ url.drop origin.length = url := by
  rw [Under, Bool.or_eq_true, decide_eq_true_eq, List.isPrefixOf_iff_prefix] at h
  rcases h with rfl | h
  · rw [List.drop_length, List.append_nil]
  · exact List.prefix_iff_eq_append.mp ((List.prefix_append _ _).trans h)

/-- What one call does, and the transport behind it. -/
structure CandidateLaw (net : Network T) (alternates : List JsString) (f : Failover)
    (request : TransportRequest) (call : Call T) (f' : Failover) : Prop where
  /-- A URL of none of the known addresses is passed through, once. -/
  outside : (∀ origin ∈ f.candidates alternates, Under request.url origin = false) →
    call = ⟨[⟨request, net 0 request⟩], (net 0 request).result.mapError some⟩ ∧ f' = f
  /-- A URL of one of them is tried at the candidates, and one that answers becomes active. -/
  inside : (∃ origin ∈ f.candidates alternates, Under request.url origin = true) →
    ∃ origin path, (f.knownOrigins alternates).find? (Under request.url) = some origin ∧
      request.url = origin ++ path ∧
      ∃ answered, Tried request path (f.candidates alternates) call answered ∧
        f'.active = answered.getD f.active

lemma active_adopt (f : Failover) (origin : JsString) : (f.adopt origin).active = origin := by
  rw [Failover.adopt]
  split_ifs with h
  · exact h.symm
  · rfl

lemma candidateLaw_attempt (net : Network T) (alternates : List JsString) (f : Failover)
    (request : TransportRequest) :
    CandidateLaw net alternates f request (attempt net alternates f request).1
      (attempt net alternates f request).2 := by
  generalize hcall : attempt net alternates f request = answer
  unfold attempt at hcall
  cases hfind : (f.knownOrigins alternates).find? (Under request.url) with
  | none =>
      unfold Under at hfind
      rw [hfind] at hcall
      rw [← hcall]
      rw [List.find?_eq_none] at hfind
      refine ⟨fun _ => ⟨rfl, rfl⟩, ?_⟩
      rintro ⟨origin, hmem, hunder⟩
      exact absurd hunder (hfind origin ((f.mem_knownOrigins alternates).mpr hmem))
  | some origin =>
      have hfound := hfind
      unfold Under at hfound
      rw [hfound] at hcall
      rw [← hcall]
      have hmem := (f.mem_knownOrigins alternates).mp (List.mem_of_find?_eq_some hfind)
      have hunder := List.find?_some hfind
      refine ⟨fun h => absurd hunder (by simp [h origin hmem]), fun _ => ?_⟩
      obtain ⟨first, rest, hcandidates⟩ := List.exists_cons_of_ne_nil (List.ne_nil_of_mem hmem)
      have htried : Tried request (request.url.drop origin.length) (first :: rest)
          (attemptEach net request (request.url.drop origin.length) 0 (first :: rest) none).1 _ :=
        tried_attemptEach 0 first rest none
      rw [← hcandidates] at htried
      refine ⟨origin, _, hfind, (append_drop_of_under hunder).symm, _, htried, ?_⟩
      dsimp only
      cases (attemptEach net request (request.url.drop origin.length) 0 (f.candidates alternates)
        none).2 with
      | none => rfl
      | some answered => exact active_adopt f answered

/-- **The candidates of a call**: they are distinct, the active address is the first of them and
the primary one is among them, and each call through the transport follows them. -/
theorem candidateLaw (net : Network T) (alternates : List JsString) (f : Failover)
    (request : TransportRequest) :
    (f.candidates alternates).Nodup ∧
    (f.active ≠ [] → (f.candidates alternates).head? = some f.active) ∧
    (∀ origin, origin ∈ f.candidates alternates ↔ origin ≠ [] ∧
      (origin = f.active ∨ origin ∈ alternates.map normaliseBaseUrl ∨ origin = f.primary)) ∧
    CandidateLaw net alternates f request (f.request alternates net request).1
      (f.request alternates net request).2 ∧
    CandidateLaw net alternates f request (f.stream alternates (some net) request).1
      (f.stream alternates (some net) request).2 :=
  ⟨f.candidates_nodup alternates, f.head?_candidates alternates,
    fun _ => f.mem_candidates alternates, candidateLaw_attempt net alternates f request,
    candidateLaw_attempt net alternates f request⟩

end LocalCast.Client
