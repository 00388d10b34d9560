import LocalCast.Foundations.UriDecode

/-!
Route matching of an Express 4 router.

* `stripMount`: `app.use(prefix, router)`. The prefix is compared without case and must
  be followed by `/` or the end; what follows it is the path the router sees.
* `Pattern`, `matchPattern`: a route path such as `/folders/:id`, compared segment by
  segment, literals without case, one trailing slash allowed.
* `dispatch`: the layers of a router in order. A layer whose path matches but whose
  parameter does not decode stops the search; one whose method differs is passed over.
-/

namespace Routing

open JsString

/-- HTTP methods; `other` carries the name of the ones no route is registered for. -/
inductive Method where
  | get | head | post | put | patch | delete | options
  | other (name : JsString)
deriving DecidableEq

/-- One segment of a route path. -/
inductive Part where
  | lit (s : JsString)
  | param
deriving DecidableEq

abbrev Pattern := List Part

/-- The separator of URL paths. -/
def slash (c : CodeUnit) : Bool := c = 47

/-- The path a router mounted under `pre` sees, or `none` where it is not asked. -/
def stripMount (pre path : JsString) : Option JsString :=
  if lower (path.take pre.length) = lower pre then
    match path.drop pre.length with
    | [] => some [47]
    | 47 :: 47 :: rest => some (47 :: rest)
    | 47 :: rest => some (47 :: rest)
    | _ :: _ => none
  else none

/-- The segments of a route path: after the leading slash, one trailing slash dropped. -/
def routeSegments (path : JsString) : Option (List JsString) :=
  match splitOn slash path with
  | [] :: ps => some (if ps.getLast? = some [] then ps.dropLast else ps)
  | _ => none

/-- The answer of one layer: no match, a match whose parameter is malformed, a match. -/
inductive Match where
  | no | malformed | yes
deriving DecidableEq

/-- Compare a pattern with the segments of a path. -/
def matchPattern : Pattern → List JsString → Match
  | [], [] => .yes
  | .lit l :: ps, s :: ss => if lower l = lower s then matchPattern ps ss else .no
  | .param :: ps, s :: ss =>
      if s = [] then .no
      else match matchPattern ps ss with
        | .no => .no
        | .malformed => .malformed
        | .yes => if (decodeURIComponent s).isSome then .yes else .malformed
  | _, _ => .no

/-- A route answers its own method, and `GET` also answers `HEAD`. -/
def handles (route request : Method) : Bool :=
  route = request || (route = .get && request = .head)

/-- The outcome of asking a router. -/
inductive Outcome (ι : Type*) where
  | unmatched
  | malformed
  | handler (i : ι)
deriving DecidableEq

/-- Ask the layers of a router in order. -/
def dispatch {ι : Type*} (method : Method) (segs : List JsString) :
    List (Method × Pattern × ι) → Outcome ι
  | [] => .unmatched
  | (m, p, i) :: layers =>
      match matchPattern p segs with
      | .no => dispatch method segs layers
      | .malformed => .malformed
      | .yes => if handles m method then .handler i else dispatch method segs layers

/-- A handler that is reached belongs to a layer whose pattern and method fit. -/
lemma dispatch_eq_handler {ι : Type*} {method : Method} {segs : List JsString} {i : ι} :
    ∀ {layers : List (Method × Pattern × ι)}, dispatch method segs layers = .handler i →
      ∃ m p, (m, p, i) ∈ layers ∧ matchPattern p segs = .yes ∧ handles m method = true
  | [], h => by cases h
  | (m, p, j) :: layers, h => by
      rw [dispatch] at h
      split at h
      · obtain ⟨m', p', hmem, h'⟩ := dispatch_eq_handler h
        exact ⟨m', p', List.mem_cons_of_mem _ hmem, h'⟩
      · cases h
      case h_3 hm =>
        by_cases hh : handles m method = true
        · rw [if_pos hh] at h
          cases h
          exact ⟨m, p, List.mem_cons_self, hm, hh⟩
        · rw [if_neg hh] at h
          obtain ⟨m', p', hmem, h'⟩ := dispatch_eq_handler h
          exact ⟨m', p', List.mem_cons_of_mem _ hmem, h'⟩

end Routing
