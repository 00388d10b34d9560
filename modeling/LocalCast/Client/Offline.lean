import LocalCast.Db.Schema
import LocalCast.Foundations.JsString
import LocalCast.Foundations.Runs

/-!
`OfflineCache` of `client-core`, cut where a call awaits the store or the fetcher.

* `CachePolicy`, `evaluate`: what may be served, and for how long.
* `Entry`, `CachePending`: what the store holds, and where a call waits.
* `CacheState`, `cacheStep`: the store, the clock, the calls, and how the calls ended.
* `CallEnd.Honest`, `CacheLaw`: what a call may return from the cache or keep back of a fetch,
  and what a clear leaves behind.

The logger is left out. An operation of the store takes effect before it resolves; one that is
rejected may have taken effect.
-/

namespace LocalCast.Client

open JsString Db

/-! ### Policies -/

/-- `CacheableResource`. -/
inductive CacheableResource where
  | me | folders | entries | fileMeta | search | printers | printJobs
deriving DecidableEq

def CacheableResource.name : CacheableResource → JsString
  | .me => js "me"
  | .folders => js "folders"
  | .entries => js "entries"
  | .fileMeta => js "file-meta"
  | .search => js "search"
  | .printers => js "printers"
  | .printJobs => js "print-jobs"

structure CachePolicy where
  ttlMs : ℕ
  staleWhileOffline : Bool
  maxStaleMs : Option ℕ

def MINUTE : ℕ := 60000

def HOUR : ℕ := 60 * MINUTE

def DAY : ℕ := 24 * HOUR

/-- `CACHE_POLICIES`. -/
def cachePolicies : CacheableResource → CachePolicy
  | .me => ⟨15 * MINUTE, true, some (7 * DAY)⟩
  | .folders => ⟨5 * MINUTE, true, some (7 * DAY)⟩
  | .entries => ⟨5 * MINUTE, true, some (7 * DAY)⟩
  | .fileMeta => ⟨HOUR, true, some (30 * DAY)⟩
  | .search => ⟨MINUTE, false, none⟩
  | .printers => ⟨MINUTE, false, none⟩
  | .printJobs => ⟨0, false, none⟩

inductive CacheVerdict where
  | fresh | staleOk | expired | miss
deriving DecidableEq

/-- The value may be served while the server cannot be reached. -/
def CachePolicy.allowsStale (policy : CachePolicy) (age : ℤ) : Bool :=
  policy.staleWhileOffline && policy.maxStaleMs.all fun max : ℕ => age ≤ max

def evaluate (resource : CacheableResource) (storedAt : Option Time) (now : Time)
    (online : Bool) : CacheVerdict :=
  let policy := cachePolicies resource
  match storedAt with
  | none => .miss
  | some storedAt =>
      let age : ℤ := now - storedAt
      if 0 < policy.ttlMs ∧ age < policy.ttlMs then .fresh
      else if !online && policy.allowsStale age then .staleOk
      else .expired

/-- `#key`. -/
def cacheKey (resource : CacheableResource) (key : JsString) : JsString :=
  resource.name ++ js ":" ++ key

/-! ### Calls -/

variable {V : Type*}

/-- `CacheEntry`, with what it was stored for, and how many clears had been called when the call
that stored it began. -/
structure Entry (V : Type*) where
  value : V
  storedAt : Time
  resource : CacheableResource
  key : JsString
  since : ℕ

/-- What a call asks for, and the schema it decodes with. -/
structure Target (V : Type*) where
  resource : CacheableResource
  key : JsString
  schema : V → Option V

def Entry.isFor (entry : Entry V) (target : Target V) : Prop :=
  entry.resource = target.resource ∧ entry.key = target.key

/-- How a fetch ended. -/
inductive FetchResult where
  | fetched | network | failed
deriving DecidableEq

/-- How a call ended, and how its fetch had: a value from the cache was served at a time at
which so many clears had resolved; the fetched value was returned; or an error was thrown. -/
inductive CallEnd (V : Type*) where
  | served (target : Target V) (entry : Entry V) (value : V) (stale : Bool) (now : Time)
      (resolved : ℕ) (fetch : Option FetchResult)
  | returned (value : V)
  | threw (fetch : Option FetchResult)

/-- A stale value that was read before the fetch. -/
structure Cached (V : Type*) where
  entry : Entry V
  value : V

/-- Where a call waits. A read of the store is captured before it resolves; a write takes effect
in the store (`landed`). -/
inductive CachePending (V : Type*) where
  /-- `read`, called by `withCache` where `wraps` is set. -/
  | reading (target : Target V) (wraps : Bool) (since : ℕ)
      (captured : Option (Option (Entry V)))
  /-- Deleting what no longer decodes. -/
  | dropping (target : Target V) (wraps : Bool) (since : ℕ) (landed : Bool)
  | fetching (target : Target V) (since : ℕ) (cached : Option (Cached V))
  /-- `write`; called by `withCache` with what it holds where there is a `wrapped`. -/
  | storing (entry : Entry V) (wrapped : Option (Target V × Option (Cached V))) (landed : Bool)
  /-- `#staleFallback`. -/
  | fallback (target : Target V) (fetch : FetchResult) (captured : Option (Option (Entry V)))
  | deleting (key : JsString) (landed : Bool)
  /-- The clear with this number. -/
  | clearing (number : ℕ) (landed : Bool)

/-- The store, the clock and `isOnline`, the calls. How many clears were called, and the highest
number of one that has taken effect and of one that has resolved; and how the calls ended. -/
structure CacheState (V : Type*) where
  store : JsString → Option (Entry V)
  now : Time
  online : Bool
  calls : ℕ → Option (CachePending V)
  nextCall : ℕ
  clears : ℕ
  effective : ℕ
  resolved : ℕ
  ended : List (CallEnd V)

/-- What `read` finds. -/
inductive Found (V : Type*) where
  | nothing
  | hit (entry : Entry V) (value : V) (stale : Bool)
  | drift

namespace CacheState

/-- Nothing was ever stored. -/
def init (now : Time) (online : Bool) : CacheState V where
  store := fun _ => none
  now := now
  online := online
  calls := fun _ => none
  nextCall := 0
  clears := 0
  effective := 0
  resolved := 0
  ended := []

variable (s : CacheState V)

def begin (p : CachePending V) : CacheState V :=
  { s with calls := Function.update s.calls s.nextCall (some p), nextCall := s.nextCall + 1 }

def goOn (i : ℕ) (p : CachePending V) : CacheState V :=
  { s with calls := Function.update s.calls i (some p) }

/-- A call is over. -/
def finish (i : ℕ) : CacheState V := { s with calls := Function.update s.calls i none }

def endWith (i : ℕ) (e : CallEnd V) : CacheState V :=
  { s.finish i with ended := e :: s.ended }

/-- `read`, behind the read of the store. -/
def find (target : Target V) : Option (Entry V) → Found V
  | none => .nothing
  | some entry =>
      match evaluate target.resource (some entry.storedAt) s.now s.online with
      | .miss | .expired => .nothing
      | .fresh =>
          match target.schema entry.value with
          | some value => .hit entry value false
          | none => .drift
      | .staleOk =>
          match target.schema entry.value with
          | some value => .hit entry value true
          | none => .drift

/-- `#staleFallback`, behind the read of the store. -/
def findStale (target : Target V) : Option (Entry V) → Option (Entry V × V)
  | none => none
  | some entry =>
      if (cachePolicies target.resource).maxStaleMs.any fun max : ℕ =>
          (s.now - entry.storedAt : ℤ) > max then none
      else (target.schema entry.value).map fun value => (entry, value)

def serve (i : ℕ) (target : Target V) (entry : Entry V) (value : V) (stale : Bool)
    (fetch : Option FetchResult) : CacheState V :=
  s.endWith i (.served target entry value stale s.now s.resolved fetch)

/-- `write`, up to its await; `none` where the policy forbids it. -/
def entryFor (resource : CacheableResource) (key : JsString) (value : V) (since : ℕ) :
    Option (Entry V) :=
  if (cachePolicies resource).ttlMs = 0 ∧ (cachePolicies resource).staleWhileOffline = false then
    none
  else some ⟨value, s.now, resource, key, since⟩

/-- A call behind its `read`. -/
def afterRead (i : ℕ) (target : Target V) (wraps : Bool) (since : ℕ) : Found V → CacheState V
  | .nothing => if wraps then s.goOn i (.fetching target since none) else s.finish i
  | .drift => s.goOn i (.dropping target wraps since false)
  | .hit entry value stale =>
      if wraps && stale then s.goOn i (.fetching target since (some ⟨entry, value⟩))
      else s.serve i target entry value stale none

/-- The handler of `withCache`, for an error that is a `NetworkError` or not. -/
def handle (i : ℕ) (target : Target V) (cached : Option (Cached V)) (fetch : FetchResult)
    (network : Bool) : CacheState V :=
  if network then
    match cached with
    | some c => s.serve i target c.entry c.value true (some fetch)
    | none =>
        if (cachePolicies target.resource).staleWhileOffline then
          s.goOn i (.fallback target fetch none)
        else s.endWith i (.threw (some fetch))
  else s.endWith i (.threw (some fetch))

end CacheState

/-! ### Steps -/

inductive CacheAction (V : Type*) where
  | read (target : Target V)
  | write (resource : CacheableResource) (key : JsString) (value : V)
  | withCache (target : Target V)
  | invalidate (resource : CacheableResource) (key : JsString)
  | clear
  /-- An operation of the store takes effect; it resolves, or it is rejected. -/
  | land (i : ℕ)
  | resume (i : ℕ)
  | reject (i : ℕ) (network : Bool)
  /-- The fetcher returns, or it throws a `NetworkError` or anything else. -/
  | fetched (i : ℕ) (value : V)
  | fetchFailed (i : ℕ) (network : Bool)
  | elapse (ms : ℕ)
  | connected (online : Bool)
  /-- The app is started again. -/
  | restart

def cacheStep (s : CacheState V) : CacheAction V → Option (CacheState V)
  | .read target => some (s.begin (.reading target false s.clears none))
  | .write resource key value =>
      match s.entryFor resource key value s.clears with
      | none => some s
      | some entry => some (s.begin (.storing entry none false))
  | .withCache target => some (s.begin (.reading target true s.clears none))
  | .invalidate resource key => some (s.begin (.deleting (cacheKey resource key) false))
  | .clear => some { s.begin (.clearing (s.clears + 1) false) with clears := s.clears + 1 }
  | .land i =>
      match s.calls i with
      | some (.reading target wraps since none) =>
          some (s.goOn i (.reading target wraps since
            (some (s.store (cacheKey target.resource target.key)))))
      | some (.fallback target fetch none) =>
          some (s.goOn i (.fallback target fetch
            (some (s.store (cacheKey target.resource target.key)))))
      | some (.dropping target wraps since false) =>
          some { s.goOn i (.dropping target wraps since true) with
            store := Function.update s.store (cacheKey target.resource target.key) none }
      | some (.storing entry wrapped false) =>
          some { s.goOn i (.storing entry wrapped true) with
            store := Function.update s.store (cacheKey entry.resource entry.key) (some entry) }
      | some (.deleting key false) =>
          some { s.goOn i (.deleting key true) with store := Function.update s.store key none }
      | some (.clearing number false) =>
          some { s.goOn i (.clearing number true) with
            store := fun _ => none, effective := max s.effective number }
      | _ => none
  | .resume i =>
      match s.calls i with
      | some (.reading target wraps since (some entry)) =>
          some (s.afterRead i target wraps since (s.find target entry))
      | some (.dropping target wraps since true) =>
          some (s.afterRead i target wraps since .nothing)
      | some (.fallback target fetch (some entry)) =>
          match s.findStale target entry with
          | some (entry, value) => some (s.serve i target entry value true (some fetch))
          | none => some (s.endWith i (.threw (some fetch)))
      | some (.storing entry (some _) true) => some (s.endWith i (.returned entry.value))
      | some (.storing _ none true) => some (s.finish i)
      | some (.deleting _ true) => some (s.finish i)
      | some (.clearing number true) =>
          some { s.finish i with resolved := max s.resolved number }
      | _ => none
  | .reject i network =>
      match s.calls i with
      | some (.storing _ (some (target, cached)) _) =>
          some (s.handle i target cached .fetched network)
      | some (.fallback _ fetch _) => some (s.endWith i (.threw (some fetch)))
      | some (.fetching ..) => none
      | some _ => some (s.endWith i (.threw none))
      | none => none
  | .fetched i value =>
      match s.calls i with
      | some (.fetching target since cached) =>
          match s.entryFor target.resource target.key value since with
          | none => some (s.endWith i (.returned value))
          | some entry => some (s.goOn i (.storing entry (some (target, cached)) false))
      | _ => none
  | .fetchFailed i network =>
      match s.calls i with
      | some (.fetching target _ cached) =>
          some (s.handle i target cached (if network then .network else .failed) network)
      | _ => none
  | .elapse ms => some { s with now := s.now + ms }
  | .connected online => some { s with online := online }
  | .restart => some { s with calls := fun _ => none }

/-! ### The law -/

/-- The age is one at which the policy of the resource allows a value to be served. -/
def CachePolicy.Allows (policy : CachePolicy) (age : ℤ) : Prop :=
  age < policy.ttlMs ∨ policy.allowsStale age = true

/-- A value that is served was stored for the same resource and key, decodes to what is served,
is not too old, and was fetched by a call begun behind every clear that has resolved; the fetch,
if there was one, could not reach the server. No fetched value is kept back. -/
def CallEnd.Honest : CallEnd V → Prop
  | .served target entry value _ now resolved fetch =>
      entry.isFor target ∧ target.schema entry.value = some value ∧
      (cachePolicies target.resource).Allows (now - entry.storedAt) ∧
      resolved ≤ entry.since ∧ (fetch = none ∨ fetch = some .network)
  | .returned _ => True
  | .threw fetch => fetch ≠ some .fetched

/-- Every call ended honestly, and nothing fetched by a call begun before a clear that has
resolved is in the store. -/
structure CacheLaw (s : CacheState V) : Prop where
  honest : ∀ e ∈ s.ended, e.Honest
  cleared : ∀ key entry, s.store key = some entry → s.resolved ≤ entry.since

end LocalCast.Client
