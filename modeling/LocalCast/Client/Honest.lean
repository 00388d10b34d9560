import LocalCast.Client.Offline

/-!
The honesty of the offline cache.

* `cacheKey_inj`: an entry is found under what it was stored for and nowhere else.
* `allows_of_find`, `allows_of_findStale`: what a read finds is not too old.
* `honestStep`: no call begun before a clear writes or serves behind it, no write of a fetched
  value is rejected, and what was stale before the fetch is not too old when the fetch fails.
* `Keeping`: the invariant; `keeping_step` is what one step keeps.
* `cache_honest`: the law in every such run.
* `cache_dishonest`: a fetch that ends behind a clear, a write that is rejected, and a fetch
  that outlives the policy.
-/

namespace LocalCast.Client

open JsString Db Runs

/-! ### Keys -/

lemma notMem_name (resource : CacheableResource) : (58 : CodeUnit) ∉ resource.name := by
  have hall : ∀ c ∈ resource.name, c ≠ 58 := by
    cases resource <;> exact forall_of_all (by decide)
  exact fun h => hall 58 h rfl

lemma name_inj {resource resource' : CacheableResource}
    (h : resource.name = resource'.name) : resource = resource' := by
  revert h
  cases resource <;> cases resource' <;> decide

/-- An entry is found under what it was stored for and nowhere else. -/
lemma cacheKey_inj {resource resource' : CacheableResource} {key key' : JsString}
    (h : cacheKey resource key = cacheKey resource' key') :
    resource = resource' ∧ key = key' := by
  have hcut : resource.name ++ 58 :: key = resource'.name ++ 58 :: key' := by
    simpa [cacheKey, js, encodeChar] using h
  obtain ⟨hname, hkey⟩ := cut_first (notMem_name resource) (notMem_name resource') hcut
  exact ⟨name_inj hname, hkey⟩

/-! ### Ages -/

variable {V : Type*} {s t : CacheState V} {a : CacheAction V}

/-- What `read` finds is what was stored, decoded, and not too old. -/
lemma allows_of_find {target : Target V} {captured : Option (Entry V)} {entry : Entry V}
    {value : V} {stale : Bool} (h : s.find target captured = .hit entry value stale) :
    captured = some entry ∧ target.schema entry.value = some value ∧
    (cachePolicies target.resource).Allows (s.now - entry.storedAt) ∧
    (stale = true → (cachePolicies target.resource).staleWhileOffline = true) := by
  cases captured with
  | none => cases h
  | some found =>
      rw [CacheState.find] at h
      have hfresh (hverdict : evaluate target.resource (some found.storedAt) s.now s.online =
          .fresh) : (s.now - found.storedAt : ℤ) < (cachePolicies target.resource).ttlMs := by
        simp only [evaluate] at hverdict
        split_ifs at hverdict with hage
        exact hage.2
      have hstale (hverdict : evaluate target.resource (some found.storedAt) s.now s.online =
          .staleOk) : (cachePolicies target.resource).allowsStale
            (s.now - found.storedAt) = true := by
        simp only [evaluate] at hverdict
        split_ifs at hverdict with hage hoff
        exact (Bool.and_eq_true_iff.mp hoff).2
      split at h
      · cases h
      · cases h
      case h_3 hverdict =>
        split at h
        case h_1 hvalue =>
          cases h
          exact ⟨rfl, hvalue, .inl (hfresh hverdict), nofun⟩
        case h_2 => cases h
      case h_4 hverdict =>
        split at h
        case h_1 hvalue =>
          cases h
          exact ⟨rfl, hvalue, .inr (hstale hverdict), fun _ =>
            (Bool.and_eq_true_iff.mp (hstale hverdict)).1⟩
        case h_2 => cases h

/-- So is what `#staleFallback` finds. -/
lemma allows_of_findStale {target : Target V} {captured : Option (Entry V)} {entry : Entry V}
    {value : V} (hpolicy : (cachePolicies target.resource).staleWhileOffline = true)
    (h : s.findStale target captured = some (entry, value)) :
    captured = some entry ∧ target.schema entry.value = some value ∧
    (cachePolicies target.resource).Allows (s.now - entry.storedAt) := by
  cases captured with
  | none => cases h
  | some found =>
      rw [CacheState.findStale] at h
      split_ifs at h with hage
      obtain ⟨v, hv, hpair⟩ := Option.map_eq_some_iff.mp h
      cases hpair
      refine ⟨rfl, hv, .inr ?_⟩
      rw [CachePolicy.allowsStale, hpolicy, Bool.true_and]
      cases hmax : (cachePolicies target.resource).maxStaleMs with
      | none => rfl
      | some max =>
          simpa [hmax] using hage

/-! ### The condition -/

/-- A clear that takes effect or resolves finds no call that was begun before it and writes or
serves behind it; the write of a fetched value is not rejected; and what was stale before the
fetch is not too old when the fetch fails. -/
def honestStep (s : CacheState V) : CacheAction V → Bool
  | .land i =>
      match s.calls i with
      | some (.storing entry _ _) => s.effective ≤ entry.since
      | _ => true
  | .resume i =>
      match s.calls i with
      | some (.reading target wraps _ (some captured)) =>
          match s.find target captured with
          | .hit entry _ stale => wraps && stale || s.resolved ≤ entry.since
          | _ => true
      | some (.fallback target _ (some captured)) =>
          (s.findStale target captured).all fun found => s.resolved ≤ found.1.since
      | _ => true
  | .reject i _ =>
      match s.calls i with
      | some (.storing _ (some _) _) => false
      | _ => true
  | .fetchFailed i true =>
      match s.calls i with
      | some (.fetching target _ (some cached)) =>
          s.resolved ≤ cached.entry.since &&
            (cachePolicies target.resource).allowsStale (s.now - cached.entry.storedAt)
      | _ => true
  | _ => true

/-! ### The invariant -/

/-- What a pending call holds was read under its own key; the numbers of the clears that have
taken effect are counted. -/
def CachePending.Sound (effective : ℕ) : CachePending V → Prop
  | .reading target _ _ captured => ∀ entry, captured = some (some entry) → entry.isFor target
  | .fetching target _ cached => ∀ c, cached = some c →
      c.entry.isFor target ∧ target.schema c.entry.value = some c.value
  | .fallback target fetch captured => fetch = .network ∧
      (cachePolicies target.resource).staleWhileOffline = true ∧
      ∀ entry, captured = some (some entry) → entry.isFor target
  | .clearing number landed => landed = true → number ≤ effective
  | _ => True

/-- What is in the store is found under its key and was fetched by a call begun behind every
clear that took effect. -/
structure Keeping (s : CacheState V) : Prop where
  keyed : ∀ key entry, s.store key = some entry → cacheKey entry.resource entry.key = key
  stored : ∀ key entry, s.store key = some entry → s.effective ≤ entry.since
  resolved : s.resolved ≤ s.effective
  pending : ∀ i p, s.calls i = some p → p.Sound s.effective
  honest : ∀ e ∈ s.ended, e.Honest

lemma Keeping.law (h : Keeping s) : CacheLaw s where
  honest := h.honest
  cleared key entry hentry := h.resolved.trans (h.stored key entry hentry)

lemma CachePending.Sound.mono {effective effective' : ℕ} {p : CachePending V}
    (h : p.Sound effective) (hle : effective ≤ effective') : p.Sound effective' := by
  cases p with
  | clearing number landed => exact fun hlanded => (h hlanded).trans hle
  | _ => exact h

lemma Keeping.isFor (h : Keeping s) {target : Target V} {entry : Entry V}
    (hentry : s.store (cacheKey target.resource target.key) = some entry) :
    entry.isFor target :=
  cacheKey_inj (h.keyed _ entry hentry)

/-! ### Steps -/

/-- A step that changes neither the store nor the clears. -/
lemma Keeping.keep (h : Keeping s) (hstore : t.store = s.store)
    (heffective : t.effective = s.effective) (hresolved : t.resolved = s.resolved)
    (hcalls : ∀ j p, t.calls j = some p → s.calls j = some p ∨ p.Sound s.effective)
    (hended : ∀ e ∈ t.ended, e ∈ s.ended ∨ e.Honest) : Keeping t where
  keyed := by rw [hstore]; exact h.keyed
  stored := by rw [hstore, heffective]; exact h.stored
  resolved := by rw [hresolved, heffective]; exact h.resolved
  pending j p hp := by
    rw [heffective]
    exact (hcalls j p hp).elim (h.pending j p) id
  honest e he := (hended e he).elim (h.honest e) id

/-- After an update at `i`, the calls are as before or the new one. -/
lemma of_update {calls : ℕ → Option (CachePending V)} {i j : ℕ}
    {p : Option (CachePending V)} {q : CachePending V}
    (h : Function.update calls i p j = some q) : calls j = some q ∨ p = some q := by
  rw [Function.update_apply] at h
  split_ifs at h
  · exact .inr h
  · exact .inl h

lemma keeping_begin (h : Keeping s) {p : CachePending V} (hp : p.Sound s.effective) :
    Keeping (s.begin p) := by
  refine h.keep rfl rfl rfl (fun j q hq => ?_) fun e he => .inl he
  rcases of_update hq with hq | hq
  · exact .inl hq
  · cases hq
    exact .inr hp

lemma keeping_goOn (h : Keeping s) (i : ℕ) {p : CachePending V} (hp : p.Sound s.effective) :
    Keeping (s.goOn i p) := by
  refine h.keep rfl rfl rfl (fun j q hq => ?_) fun e he => .inl he
  rcases of_update hq with hq | hq
  · exact .inl hq
  · cases hq
    exact .inr hp

lemma calls_finish {i j : ℕ} {q : CachePending V} (h : (s.finish i).calls j = some q) :
    s.calls j = some q :=
  (of_update h).resolve_right nofun

lemma keeping_finish (h : Keeping s) (i : ℕ) : Keeping (s.finish i) :=
  h.keep rfl rfl rfl (fun _ _ hq => .inl (calls_finish hq)) fun _ he => .inl he

lemma keeping_end (h : Keeping s) (i : ℕ) {e : CallEnd V} (he : e.Honest) :
    Keeping (s.endWith i e) := by
  refine h.keep rfl rfl rfl (fun _ _ hq => .inl (calls_finish hq)) fun e' he' => ?_
  rcases List.mem_cons.mp he' with rfl | he'
  · exact .inr he
  · exact .inl he'

/-- An entry is taken out of the store, or one is put in that was fetched late enough. -/
lemma keeping_update (h : Keeping s) {store : JsString → Option (Entry V)} {key : JsString}
    {entry : Option (Entry V)} (hstore : store = Function.update s.store key entry)
    (hentry : ∀ e, entry = some e → cacheKey e.resource e.key = key ∧ s.effective ≤ e.since) :
    Keeping { s with store := store } := by
  have hfound (k : JsString) (e : Entry V) (he : store k = some e) :
      s.store k = some e ∨ cacheKey e.resource e.key = k ∧ s.effective ≤ e.since := by
    rw [hstore, Function.update_apply] at he
    split_ifs at he with hk
    · rw [hk]
      exact .inr (hentry e he)
    · exact .inl he
  refine ⟨fun k e he => ?_, fun k e he => ?_, h.resolved, h.pending, h.honest⟩
  · exact (hfound k e he).elim (h.keyed k e) And.left
  · exact (hfound k e he).elim (h.stored k e) And.right

/-- A clear takes effect. -/
lemma keeping_clear (h : Keeping s) (number : ℕ) :
    Keeping { s with store := fun _ => none, effective := max s.effective number } where
  keyed := nofun
  stored := nofun
  resolved := h.resolved.trans (le_max_left _ _)
  pending i p hp := (h.pending i p hp).mono (le_max_left _ _)
  honest := h.honest

/-- A value from the cache is served. -/
lemma keeping_serve (h : Keeping s) (i : ℕ) {target : Target V} {entry : Entry V} {value : V}
    {stale : Bool} {fetch : Option FetchResult} (hfor : entry.isFor target)
    (hvalue : target.schema entry.value = some value)
    (hage : (cachePolicies target.resource).Allows (s.now - entry.storedAt))
    (hsince : s.resolved ≤ entry.since) (hfetch : fetch = none ∨ fetch = some .network) :
    Keeping (s.serve i target entry value stale fetch) :=
  keeping_end h i ⟨hfor, hvalue, hage, hsince, hfetch⟩

lemma keeping_land (h : Keeping s) {i : ℕ} (hguard : honestStep s (.land i) = true)
    (hstep : cacheStep s (.land i) = some t) : Keeping t := by
  simp only [cacheStep] at hstep
  split at hstep
  case h_1 target wraps since hi =>
    cases hstep
    refine keeping_goOn h i fun entry hentry => ?_
    exact h.isFor (Option.some.inj hentry)
  case h_2 target fetch hi =>
    cases hstep
    obtain ⟨hfetch, hpolicy, -⟩ := h.pending i _ hi
    refine keeping_goOn h i ⟨hfetch, hpolicy, fun entry hentry => ?_⟩
    exact h.isFor (Option.some.inj hentry)
  case h_3 target wraps since hi =>
    cases hstep
    have hgoOn := keeping_goOn h i (p := .dropping target wraps since true) trivial
    exact keeping_update hgoOn rfl nofun
  case h_4 entry wrapped hi =>
    cases hstep
    simp only [honestStep, hi, decide_eq_true_eq] at hguard
    have hgoOn := keeping_goOn h i (p := .storing entry wrapped true) trivial
    refine keeping_update hgoOn rfl ?_
    rintro _ ⟨⟩
    exact ⟨rfl, hguard⟩
  case h_5 key hi =>
    cases hstep
    have hgoOn := keeping_goOn h i (p := .deleting key true) trivial
    exact keeping_update hgoOn rfl nofun
  case h_6 number hi =>
    cases hstep
    have hclear := keeping_clear h number
    exact keeping_goOn hclear i fun _ => le_max_right _ _
  case h_7 => cases hstep

lemma keeping_afterRead (h : Keeping s) (i : ℕ) {target : Target V} {wraps : Bool} {since : ℕ}
    {found : Found V} (hfound : ∀ entry value stale, found = .hit entry value stale →
      entry.isFor target ∧ target.schema entry.value = some value ∧
      (cachePolicies target.resource).Allows (s.now - entry.storedAt) ∧
      (wraps && stale || s.resolved ≤ entry.since) = true) :
    Keeping (s.afterRead i target wraps since found) := by
  cases found with
  | nothing =>
      rw [CacheState.afterRead]
      split_ifs
      · exact keeping_goOn h i nofun
      · exact keeping_finish h i
  | drift => exact keeping_goOn h i trivial
  | hit entry value stale =>
      obtain ⟨hfor, hvalue, hage, hsince⟩ := hfound entry value stale rfl
      rw [CacheState.afterRead]
      split_ifs with hstale
      · refine keeping_goOn h i ?_
        rintro _ ⟨⟩
        exact ⟨hfor, hvalue⟩
      · rw [Bool.not_eq_true] at hstale
        rw [hstale, Bool.false_or, decide_eq_true_eq] at hsince
        exact keeping_serve h i hfor hvalue hage hsince (.inl rfl)

lemma keeping_resume (h : Keeping s) {i : ℕ} (hguard : honestStep s (.resume i) = true)
    (hstep : cacheStep s (.resume i) = some t) : Keeping t := by
  simp only [cacheStep] at hstep
  split at hstep
  case h_1 target wraps since captured hi =>
    cases hstep
    refine keeping_afterRead h i fun entry value stale hfound => ?_
    obtain ⟨rfl, hvalue, hage, -⟩ := allows_of_find hfound
    simp only [honestStep, hi, hfound] at hguard
    exact ⟨h.pending i _ hi entry rfl, hvalue, hage, hguard⟩
  case h_2 target wraps since hi =>
    cases hstep
    exact keeping_afterRead h i nofun
  case h_3 target fetch captured hi =>
    obtain ⟨rfl, hpolicy, hcaptured⟩ := h.pending i _ hi
    split at hstep
    case h_1 entry value hfound =>
      cases hstep
      obtain ⟨rfl, hvalue, hage⟩ := allows_of_findStale hpolicy hfound
      simp only [honestStep, hi, hfound, Option.all_some, decide_eq_true_eq] at hguard
      exact keeping_serve h i (hcaptured entry rfl) hvalue hage hguard (.inr rfl)
    case h_2 =>
      cases hstep
      exact keeping_end h i nofun
  case h_4 =>
    cases hstep
    exact keeping_end h i trivial
  case h_5 | h_6 =>
    cases hstep
    exact keeping_finish h i
  case h_7 number hi =>
    cases hstep
    have hfinish := keeping_finish h i
    exact ⟨hfinish.keyed, hfinish.stored, max_le h.resolved (h.pending i _ hi rfl),
      hfinish.pending, hfinish.honest⟩
  case h_8 => cases hstep

/-- The handler of `withCache`, once the fetch has failed. -/
lemma keeping_handle (h : Keeping s) (i : ℕ) {target : Target V} {cached : Option (Cached V)}
    {fetch : FetchResult} {network : Bool} (hfetch : fetch ≠ .fetched)
    (hnetwork : network = true → fetch = .network)
    (hcached : network = true → ∀ c, cached = some c → c.entry.isFor target ∧
      target.schema c.entry.value = some c.value ∧ s.resolved ≤ c.entry.since ∧
      (cachePolicies target.resource).Allows (s.now - c.entry.storedAt)) :
    Keeping (s.handle i target cached fetch network) := by
  have hthrew : (CallEnd.threw (V := V) (some fetch)).Honest :=
    fun heq => hfetch (Option.some.inj heq)
  cases network with
  | false => exact keeping_end h i hthrew
  | true =>
      cases cached with
      | some c =>
          obtain ⟨hfor, hvalue, hsince, hage⟩ := hcached rfl c rfl
          exact keeping_serve h i hfor hvalue hage hsince (.inr (by rw [hnetwork rfl]))
      | none =>
          simp only [CacheState.handle, if_true]
          split_ifs with hpolicy
          · exact keeping_goOn h i ⟨hnetwork rfl, hpolicy, nofun⟩
          · exact keeping_end h i hthrew

lemma keeping_reject (h : Keeping s) {i : ℕ} {network : Bool}
    (hguard : honestStep s (.reject i network) = true)
    (hstep : cacheStep s (.reject i network) = some t) : Keeping t := by
  simp only [cacheStep] at hstep
  split at hstep
  case h_1 entry target cached landed hi =>
    rw [honestStep, hi] at hguard
    cases hguard
  case h_2 target fetch captured hi =>
    cases hstep
    obtain ⟨rfl, -, -⟩ := h.pending i _ hi
    exact keeping_end h i nofun
  case h_3 => cases hstep
  case h_4 =>
    cases hstep
    exact keeping_end h i nofun
  case h_5 => cases hstep

lemma keeping_fetchFailed (h : Keeping s) {i : ℕ} {network : Bool}
    (hguard : honestStep s (.fetchFailed i network) = true)
    (hstep : cacheStep s (.fetchFailed i network) = some t) : Keeping t := by
  simp only [cacheStep] at hstep
  split at hstep
  case h_1 target since cached hi =>
    cases hstep
    have hsound := h.pending i _ hi
    refine keeping_handle h i (by split_ifs <;> simp) (fun hn => if_pos hn) fun hn c hc => ?_
    subst hn hc
    simp only [honestStep, hi, Bool.and_eq_true, decide_eq_true_eq] at hguard
    exact ⟨(hsound c rfl).1, (hsound c rfl).2, hguard.1, .inr hguard.2⟩
  case h_2 => cases hstep

/-- **One step** keeps the invariant. -/
lemma keeping_step (h : Keeping s) (hguard : honestStep s a = true)
    (hstep : cacheStep s a = some t) : Keeping t := by
  cases a with
  | read target =>
      cases hstep
      exact keeping_begin h nofun
  | write resource key value =>
      simp only [cacheStep] at hstep
      split at hstep
      · cases hstep
        exact h
      · cases hstep
        exact keeping_begin h trivial
  | withCache target =>
      cases hstep
      exact keeping_begin h nofun
  | invalidate resource key =>
      cases hstep
      exact keeping_begin h trivial
  | clear =>
      cases hstep
      have hbegin : Keeping (s.begin (.clearing (s.clears + 1) false)) := keeping_begin h nofun
      exact ⟨hbegin.keyed, hbegin.stored, hbegin.resolved, hbegin.pending, hbegin.honest⟩
  | land i => exact keeping_land h hguard hstep
  | resume i => exact keeping_resume h hguard hstep
  | reject i network => exact keeping_reject h hguard hstep
  | fetched i value =>
      simp only [cacheStep] at hstep
      split at hstep
      case h_1 target since cached hi =>
        split at hstep
        · cases hstep
          exact keeping_end h i trivial
        · cases hstep
          exact keeping_goOn h i trivial
      case h_2 => cases hstep
  | fetchFailed i network => exact keeping_fetchFailed h hguard hstep
  | elapse ms =>
      cases hstep
      exact ⟨h.keyed, h.stored, h.resolved, h.pending, h.honest⟩
  | connected online =>
      cases hstep
      exact ⟨h.keyed, h.stored, h.resolved, h.pending, h.honest⟩
  | restart =>
      cases hstep
      exact ⟨h.keyed, h.stored, h.resolved, nofun, h.honest⟩

lemma keeping_init (now : Time) (online : Bool) : Keeping (.init now online : CacheState V) :=
  ⟨nofun, nofun, le_rfl, nofun, nofun⟩

/-- **The cache is honest**: in every run whose steps meet the condition, every call ends
honestly and a clear leaves nothing behind. -/
theorem cache_honest {now : Time} {online : Bool} {as : List (CacheAction V)}
    (h : Run (Guarded (fun s a => honestStep s a) cacheStep) (.init now online) as s) :
    CacheLaw s := by
  have hs : Keeping s :=
    h.invariant (fun _ _ _ hs hstep => keeping_step hs hstep.1 hstep.2) (keeping_init now online)
  exact hs.law

/-! ### Concrete runs -/

/-- The list of folders, with a schema that accepts everything. -/
def allFolders : Target ℕ := ⟨.folders, js "all", some⟩

/-- A call whose fetch returns 7, up to the write. -/
def fetchSeven : List (CacheAction ℕ) :=
  [.withCache allFolders, .land 0, .resume 0, .fetched 0 7]

/-- A value is stored, served a day later while the server cannot be reached, and cleared. -/
theorem cache_honest_cleared : ∃ s,
    Run (Guarded (fun s a => honestStep s a) cacheStep) (.init 0 true)
      (fetchSeven ++ [.land 0, .resume 0, .elapse DAY, .withCache allFolders, .land 1, .resume 1,
        .fetchFailed 1 true, .land 1, .resume 1, .clear, .land 2, .resume 2]) s ∧
    s.resolved = 1 ∧ s.ended.length = 2 ∧ CacheLaw s := by
  obtain ⟨s, hrun, hs⟩ := exists_guarded_run_of_exec (fun s a => honestStep s a) cacheStep
    (.init 0 true) (fetchSeven ++ [.land 0, .resume 0, .elapse DAY, .withCache allFolders,
      .land 1, .resume 1, .fetchFailed 1 true, .land 1, .resume 1, .clear, .land 2, .resume 2])
    (fun s => s.resolved = 1 ∧ s.ended.length = 2) (by decide +kernel)
  have hs := of_decide_eq_true hs
  exact ⟨s, hrun, hs.1, hs.2, cache_honest hrun⟩

/-- **The cache is dishonest**: a fetch that was under way when the store was cleared writes
behind the clear; a fetched value is thrown away because it could not be stored; and a value is
served thirty seconds past its last day. -/
theorem cache_dishonest :
    (∃ s, Run (Steps cacheStep) (.init 0 true) ([.withCache allFolders, .land 0, .resume 0, .clear,
        .land 1, .resume 1, .fetched 0 7, .land 0, .resume 0]) s ∧
      (s.store (cacheKey .folders (js "all"))).map Entry.value = some 7 ∧ ¬ CacheLaw s) ∧
    (∃ s, Run (Steps cacheStep) (.init 0 true) (fetchSeven ++ [.reject 0 false]) s ∧
      CallEnd.threw (some .fetched) ∈ s.ended ∧ ¬ CacheLaw s) ∧
    ∃ s, Run (Steps cacheStep) (.init 0 false) (fetchSeven ++ [.land 0, .resume 0,
        .elapse (7 * DAY), .withCache allFolders, .land 1, .resume 1, .elapse 30000,
        .fetchFailed 1 true]) s ∧ ¬ CacheLaw s := by
  refine ⟨?_, ?_, ?_⟩
  · have hexec : exec cacheStep (.init 0 true) [.withCache allFolders, .land 0, .resume 0, .clear,
        .land 1, .resume 1, .fetched 0 7, .land 0, .resume 0] = some _ := rfl
    refine ⟨_, exec_eq_some_iff.mp hexec, rfl, fun hlaw => ?_⟩
    exact absurd (hlaw.cleared (cacheKey .folders (js "all")) _ rfl) (by decide)
  · have hexec : exec cacheStep (.init 0 true) (fetchSeven ++ [.reject 0 false]) = some _ := rfl
    refine ⟨_, exec_eq_some_iff.mp hexec, List.mem_cons_self, fun hlaw => ?_⟩
    exact hlaw.honest _ List.mem_cons_self rfl
  · have hexec : exec cacheStep (.init 0 false) (fetchSeven ++ [.land 0, .resume 0,
        .elapse (7 * DAY), .withCache allFolders, .land 1, .resume 1, .elapse 30000,
        .fetchFailed 1 true]) = some _ := rfl
    refine ⟨_, exec_eq_some_iff.mp hexec, fun hlaw => ?_⟩
    obtain ⟨-, -, hage, -⟩ := hlaw.honest _ List.mem_cons_self
    rcases hage with hage | hage
    · revert hage
      decide +kernel
    · revert hage
      decide +kernel

end LocalCast.Client
