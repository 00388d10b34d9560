import LocalCast.Client.Coherent

/-!
The session manager after a sign-out.

* `SignOutLaw`: a call finds no session and sends nothing, and once the pending calls are over
  memory and store are empty.
* `heedsSignOut`: no read and no write-back that was under way brings a session back.
* `SignedOut`: the invariant; `signedOut_step` is what one step keeps.
* `sign_out_final`: the law in every such run.
* `session_restored`: the answer of a refresh that arrives after the sign-out.
-/

namespace LocalCast.Client

open JsString Contract Db Runs

/-! ### The law -/

/-- After a sign-out, until a session is adopted: a call sends nothing, because it finds no
session; at rest memory and store are empty. -/
structure SignOutLaw (s : SessionState) : Prop where
  silent : s.signedOut = true → s.memory = some none ∧ ∀ w, s.call w = s
  empty : s.Idle → s.signedOut = true → s.memory = some none ∧ s.store = none

/-- What a read found and what a write-back wrote is taken into memory only before a sign-out. -/
def heedsSignOut (s : SessionState) : SessionAction → Bool
  | .loaded =>
      match s.loading with
      | some ⟨some (some _), _⟩ => !s.signedOut
      | _ => true
  | .resume i =>
      match s.calls i with
      | some (.writing ..) => !s.signedOut
      | _ => true
  | _ => true

/-! ### The invariant -/

namespace Pending

/-- The clearing of the store is still to come. -/
def isDue : Pending → Bool
  | .clearing landed _ => !landed
  | _ => false

/-- What the call wrote is in the store, and the call is not over. -/
def isLanded : Pending → Bool
  | .writing _ _ landed _ => landed
  | .adopting _ landed => landed
  | _ => false

end Pending

namespace SessionState

variable (s : SessionState)

/-- The store is empty, or about to be, or a pending call has written it. -/
def Clearing : Prop := s.store = none ∨ s.Pends fun p => p.isDue = true ∨ p.isLanded = true

end SessionState

/-- After a sign-out there is no session in memory, and what is in the store is on its way out. -/
structure SignedOut (s : SessionState) : Prop where
  fresh : ∀ i, s.nextCall ≤ i → s.calls i = none
  memory : s.signedOut = true → s.memory = some none
  store : s.signedOut = true → s.Clearing

variable {s t : SessionState} {a : SessionAction}

lemma SignedOut.law (h : SignedOut s) : SignOutLaw s where
  silent hout := by
    refine ⟨h.memory hout, fun w => ?_⟩
    rw [SessionState.call, h.memory hout]
    rfl
  empty := by
    rintro ⟨-, hidle⟩ hout
    refine ⟨h.memory hout, (h.store hout).resolve_right ?_⟩
    rintro ⟨i, p, hp, -⟩
    cases (hidle i).symm.trans hp

/-! ### Steps -/

section Change

variable {i : ℕ} {q : Pending} {o : Option Pending}

/-- Call `i` goes on or is over. -/
lemma SignedOut.change (h : SignedOut s) (hq : s.calls i = some q)
    (hc : t.calls = Function.update s.calls i o) (hnext : t.nextCall = s.nextCall)
    (hmemory : t.signedOut = true → t.memory = some none)
    (hstore : t.signedOut = true → t.Clearing) : SignedOut t where
  fresh j hj := by
    rw [hnext] at hj
    have hij : j ≠ i := by
      rintro rfl
      cases (h.fresh j hj).symm.trans hq
    rw [calls_change hc, if_neg hij, h.fresh j hj]
  memory := hmemory
  store := hstore

/-- A call that neither owes the store its clearing nor has written it leaves the rest alone. -/
lemma clearing_change (h : s.Clearing) (hq : s.calls i = some q) (hdue : q.isDue = false)
    (hlanded : q.isLanded = false) (hc : t.calls = Function.update s.calls i o)
    (hstore : t.store = s.store) : t.Clearing := by
  refine h.imp (fun h => hstore.trans h) (pends_of_old hc fun p hp hP => ?_)
  obtain rfl := Option.some.inj (hq.symm.trans hp)
  simp [hdue, hlanded] at hP

/-- A call goes on or is over, and neither memory nor store changes. -/
lemma SignedOut.pass (h : SignedOut s) (hq : s.calls i = some q) (hdue : q.isDue = false)
    (hlanded : q.isLanded = false) (hc : t.calls = Function.update s.calls i o)
    (hnext : t.nextCall = s.nextCall) (hout : t.signedOut = s.signedOut)
    (hmemory : t.memory = s.memory) (hstore : t.store = s.store) : SignedOut t :=
  h.change hq hc hnext (fun ho => hmemory.trans (h.memory (hout.symm.trans ho))) fun ho =>
    clearing_change (h.store (hout.symm.trans ho)) hq hdue hlanded hc hstore

lemma clearing_of (hc : t.calls = Function.update s.calls i (some q))
    (hq : q.isDue = true ∨ q.isLanded = true) : t.Clearing :=
  .inr ⟨i, q, by rw [hc, Function.update_self], hq⟩

/-- A call begins. -/
lemma SignedOut.begin (h : SignedOut s) (hc : t.calls = Function.update s.calls s.nextCall o)
    (hnext : t.nextCall = s.nextCall + 1) (hmemory : t.signedOut = true → t.memory = some none)
    (hstore : t.signedOut = true → t.Clearing) : SignedOut t where
  fresh j hj := by rw [calls_change hc, if_neg (by omega), h.fresh j (by omega)]
  memory := hmemory
  store := hstore

lemma clearing_begin (h : s.Clearing) (hs : SignedOut s)
    (hc : t.calls = Function.update s.calls s.nextCall o) (hstore : t.store = s.store) :
    t.Clearing := by
  refine h.imp (fun h => hstore.trans h) (pends_of_old hc fun p hp _ => ?_)
  cases (hs.fresh _ le_rfl).symm.trans hp

end Change

/-- Nothing is asked of a state in which a session is held. -/
lemma SignedOut.signedIn (hfresh : ∀ i, s.nextCall ≤ i → s.calls i = none)
    (h : s.signedOut = false) : SignedOut s where
  fresh := hfresh
  memory hout := absurd (h.symm.trans hout) (by simp)
  store hout := absurd (h.symm.trans hout) (by simp)

lemma signedOut_refresh (h : SignedOut s) (hin : s.signedOut = false) (k : StoredSession) :
    SignedOut (s.refresh k) ∧ (s.refresh k).signedOut = false := by
  rw [SessionState.refresh]
  cases s.refreshing with
  | some _ => exact ⟨h, hin⟩
  | none =>
      refine ⟨.signedIn (fun j hj => ?_) hin, hin⟩
      have hj : s.nextCall + 1 ≤ j := hj
      show Function.update s.calls s.nextCall _ j = none
      rw [Function.update_of_ne (by omega), h.fresh j (by omega)]

/-- A call that goes on with a session leaves it held. -/
lemma signedOut_continueWith (h : SignedOut s) (hin : s.signedOut = false)
    (session : Option StoredSession) (w : Waiter) :
    SignedOut (s.continueWith session w) ∧ (s.continueWith session w).signedOut = false := by
  cases session with
  | none => exact ⟨h, hin⟩
  | some k =>
      cases w with
      | load => exact ⟨h, hin⟩
      | ensureFresh now =>
          simp only [SessionState.continueWith]
          split_ifs
          · exact ⟨h, hin⟩
          · exact signedOut_refresh h hin k
      | refreshAfter stale =>
          simp only [SessionState.continueWith]
          split_ifs
          · exact signedOut_refresh h hin k
          · exact ⟨h, hin⟩
      | updateAlternates origins =>
          simp only [SessionState.continueWith]
          split_ifs
          · exact ⟨.signedIn h.fresh hin, hin⟩
          · refine ⟨.signedIn (fun j hj => ?_) hin, hin⟩
            have hj : s.nextCall + 1 ≤ j := hj
            show Function.update s.calls s.nextCall _ j = none
            rw [Function.update_of_ne (by omega), h.fresh j (by omega)]

lemma signedOut_foldl {session : Option StoredSession} (ws : List Waiter) (h : SignedOut s)
    (hin : s.signedOut = false) :
    SignedOut (ws.foldl (fun s w => s.continueWith session w) s) := by
  induction ws generalizing s with
  | nil => exact h
  | cons w ws ih =>
      obtain ⟨h', hin'⟩ := signedOut_continueWith h hin session w
      exact ih h' hin'

lemma foldl_none (ws : List Waiter) :
    ws.foldl (fun s w => SessionState.continueWith s none w) s = s := by
  induction ws with
  | nil => rfl
  | cons w ws ih => exact ih

lemma signedOut_call (h : SignedOut s) (w : Waiter) : SignedOut (s.call w) := by
  cases hin : s.signedOut with
  | true =>
      rw [(h.law.silent hin).2 w]
      exact h
  | false =>
      rw [SessionState.call]
      cases s.memory with
      | some session => exact (signedOut_continueWith h hin session w).1
      | none =>
          cases s.loading with
          | none => exact .signedIn h.fresh hin
          | some l => exact .signedIn h.fresh hin

lemma signedOut_loaded (h : SignedOut s) (hguard : heedsSignOut s .loaded = true)
    (hstep : sessionStep s .loaded = some t) : SignedOut t := by
  rcases hl : s.loading with - | ⟨captured, waiters⟩
  · simp [sessionStep, hl] at hstep
  cases captured with
  | none => simp [sessionStep, hl] at hstep
  | some session =>
      simp only [sessionStep, hl, Option.some.injEq] at hstep
      subst hstep
      cases session with
      | none =>
          rw [foldl_none]
          exact ⟨h.fresh, fun _ => rfl, h.store⟩
      | some k =>
          have hin : s.signedOut = false := by simpa [heedsSignOut, hl] using hguard
          exact signedOut_foldl waiters (.signedIn h.fresh hin) hin

lemma signedOut_response (h : SignedOut s) {i : ℕ} (hstep : sessionStep s (.response i) = some t) :
    SignedOut t := by
  rcases hq : s.calls i with - | ⟨known, - | ⟨access, token, expiry⟩ | code⟩ | _ | _ | _
  · simp [sessionStep, hq] at hstep
  · simp [sessionStep, hq] at hstep
  · simp only [sessionStep, hq, Option.some.injEq] at hstep
    subst hstep
    exact h.pass hq rfl rfl rfl rfl rfl rfl rfl
  · simp only [sessionStep, hq] at hstep
    split_ifs at hstep
    · cases hstep
      exact h.change hq rfl rfl (fun _ => rfl) fun _ => clearing_of rfl (.inl rfl)
    · cases hstep
      exact h.pass hq rfl rfl rfl rfl rfl rfl rfl
  all_goals simp [sessionStep, hq] at hstep

lemma signedOut_land (h : SignedOut s) {i : ℕ} (hstep : sessionStep s (.land i) = some t) :
    SignedOut t := by
  rcases hq : s.calls i with - | ⟨known, reply⟩ | ⟨base, next, _ | _, refresh⟩ | ⟨_ | _, refresh⟩ |
    ⟨session, _ | _⟩
  · simp [sessionStep, hq] at hstep
  · simp [sessionStep, hq] at hstep
  · simp only [sessionStep, hq, Option.some.injEq] at hstep
    subst hstep
    exact h.change hq rfl rfl h.memory fun _ => clearing_of rfl (.inr rfl)
  · simp [sessionStep, hq] at hstep
  · simp only [sessionStep, hq, Option.some.injEq] at hstep
    subst hstep
    exact h.change hq rfl rfl h.memory fun _ => .inl rfl
  · simp [sessionStep, hq] at hstep
  · simp only [sessionStep, hq] at hstep
    split_ifs at hstep
    cases hstep
    exact h.change hq rfl rfl h.memory fun _ => clearing_of rfl (.inr rfl)
  · simp [sessionStep, hq] at hstep

lemma signedOut_resume (h : SignedOut s) {i : ℕ} (hguard : heedsSignOut s (.resume i) = true)
    (hstep : sessionStep s (.resume i) = some t) : SignedOut t := by
  rcases hq : s.calls i with - | ⟨known, reply⟩ | ⟨base, next, _ | _, refresh⟩ | ⟨_ | _, refresh⟩ |
    ⟨session, _ | _⟩
  · simp [sessionStep, hq] at hstep
  · simp [sessionStep, hq] at hstep
  · simp [sessionStep, hq] at hstep
  · -- a write-back finds a session held
    simp only [sessionStep, hq, Option.some.injEq] at hstep
    subst hstep
    have hin : s.signedOut = false := by simpa [heedsSignOut, hq] using hguard
    have hout {P : Prop} (hout : s.signedOut = true) : P := absurd (hin.symm.trans hout) (by simp)
    exact h.change hq rfl rfl hout hout
  · simp [sessionStep, hq] at hstep
  · simp only [sessionStep, hq, Option.some.injEq] at hstep
    subst hstep
    exact h.pass hq rfl rfl rfl rfl rfl rfl rfl
  · simp [sessionStep, hq] at hstep
  · simp only [sessionStep, hq, Option.some.injEq] at hstep
    subst hstep
    exact h.change hq rfl rfl (fun hout => nomatch hout) (fun hout => nomatch hout)

/-- What one step keeps. -/
lemma signedOut_step (h : SignedOut s) (hguard : heedsSignOut s a = true)
    (hstep : sessionStep s a = some t) : SignedOut t := by
  cases a with
  | call w =>
      cases hstep
      exact signedOut_call h w
  | adopt session =>
      cases hstep
      exact h.begin rfl rfl h.memory fun hout => clearing_begin (h.store hout) h rfl rfl
  | signOut =>
      cases hstep
      exact h.begin rfl rfl (fun _ => rfl) fun _ => clearing_of rfl (.inl rfl)
  | captured =>
      rcases hl : s.loading with - | ⟨_ | _, waiters⟩
      · simp [sessionStep, hl] at hstep
      · simp only [sessionStep, hl, Option.some.injEq] at hstep
        subst hstep
        exact ⟨h.fresh, h.memory, h.store⟩
      · simp [sessionStep, hl] at hstep
  | loaded => exact signedOut_loaded h hguard hstep
  | unreachable i =>
      rcases hq : s.calls i with - | ⟨known, _ | _⟩ | _ | _ | _
      · simp [sessionStep, hq] at hstep
      · simp only [sessionStep, hq, Option.some.injEq] at hstep
        subst hstep
        exact h.pass hq rfl rfl rfl rfl rfl rfl rfl
      all_goals simp [sessionStep, hq] at hstep
  | rotate i access token expiry =>
      rcases hq : s.calls i with - | ⟨known, _ | _⟩ | _ | _ | _
      · simp [sessionStep, hq] at hstep
      · simp only [sessionStep, hq] at hstep
        split_ifs at hstep <;> cases hstep <;>
        exact h.pass hq rfl rfl rfl rfl rfl rfl rfl
      all_goals simp [sessionStep, hq] at hstep
  | refuse i code =>
      rcases hq : s.calls i with - | ⟨known, _ | _⟩ | _ | _ | _
      · simp [sessionStep, hq] at hstep
      · simp only [sessionStep, hq, Option.some.injEq] at hstep
        subst hstep
        exact h.pass hq rfl rfl rfl rfl rfl rfl rfl
      all_goals simp [sessionStep, hq] at hstep
  | response i => exact signedOut_response h hstep
  | land i => exact signedOut_land h hstep
  | resume i => exact signedOut_resume h hguard hstep

lemma signedOut_init (stored : Option StoredSession) : SignedOut (.init stored) :=
  .signedIn (fun _ _ => rfl) rfl

/-- **Sign-out is final** in every run in which no read and no write-back that was under way
brings a session back. -/
theorem sign_out_final {stored : Option StoredSession} {as : List SessionAction}
    (h : Run (Guarded (fun s a => heedsSignOut s a) sessionStep) (.init stored) as s) :
    SignOutLaw s :=
  have hs : SignedOut s := h.invariant (fun _ _ _ hs hstep => signedOut_step hs hstep.1 hstep.2)
    (signedOut_init stored)
  hs.law

/-! ### Concrete runs -/

def signedIn : StoredSession := ⟨js "d", js "a1", js "r1", 1000, none, none⟩

/-- The user signs out while a refresh waits for its answer. -/
def leaving : List SessionAction :=
  [.call (.ensureFresh 900), .captured, .loaded, .rotate 0 (js "a2") (js "r2") 900000,
    .signOut, .land 1, .resume 1]

/-- The refresh never reaches the server, and the next call finds no session. -/
theorem sign_out_final_unreachable : ∃ s,
    Run (Guarded (fun s a => heedsSignOut s a) sessionStep) (.init (some signedIn))
      [.call (.ensureFresh 900), .captured, .loaded, .signOut, .land 1, .unreachable 0, .resume 1,
        .call (.ensureFresh 950)] s ∧
    (s.signedOut && s.store = none) = true ∧ SignOutLaw s := by
  obtain ⟨s, hrun, hs⟩ := exists_guarded_run_of_exec (fun s a => heedsSignOut s a) sessionStep
    (.init (some signedIn)) [.call (.ensureFresh 900), .captured, .loaded, .signOut, .land 1,
      .unreachable 0, .resume 1, .call (.ensureFresh 950)]
    (fun s => s.signedOut && s.store = none) (by decide +kernel)
  exact ⟨s, hrun, hs, sign_out_final hrun⟩

/-- **The session comes back**: the answer of the refresh arrives when the sign-out is done, and
is written to the store and to memory. -/
theorem session_restored : ∃ s,
    Run (Steps sessionStep) (.init (some signedIn))
      (leaving ++ [.response 0, .land 0, .resume 0]) s ∧ s.Idle ∧ s.signedOut = true ∧
    (s.store.any fun m => m.refreshToken = js "r2") = true ∧ ¬ SignOutLaw s := by
  have hexec : exec sessionStep (.init (some signedIn))
      (leaving ++ [.response 0, .land 0, .resume 0]) = some _ := rfl
  refine ⟨_, exec_eq_some_iff.mp hexec, ⟨rfl, fun i => ?_⟩, rfl, by decide +kernel, fun hlaw => ?_⟩
  · rcases i with - | - | i <;> rfl
  · have hmem := (hlaw.silent rfl).1
    cases hmem

end LocalCast.Client
