import LocalCast.Uploads.Sessions

/-!
One `PATCH` of an upload session from the request to its answer, while the server does other
work on the side.

* `Exchange`: the call is made, goes on step by step, and settles. Other steps of the server
  may come between as long as they leave the session and the call alone.
* `Outcome`: what an exchange may do to the session as its device sees it.
* `Going`: how far the call has come; `going_step` is one step of it.
* `exchange_outcome`: an exchange has one of the outcomes.
* `exists_exchange_of_exec`: an exchange exhibited by evaluation.
-/

namespace LocalCast.Uploads

open JsString Contract Db Auth Library Runs

/-! ### Exchanges -/

namespace Action

/-- The call at slot `i` goes on. -/
def continues (i : ℕ) : Action → Bool
  | .openedTemp j _ | .chunk j _ _ _ | .closed j _ _ | .resolved j _ | .madeDir j _
  | .reserved j _ | .renamed j _ | .recorded j _ | .cleaned j _ => j = i
  | _ => false

/-- The part of the body that arrives. -/
def data : Action → List UInt8
  | .chunk _ data _ _ => data
  | _ => []

/-- The body breaks off, or cannot be written. -/
def breaks : Action → Bool
  | .chunk _ data _ fails => fails && data ≠ []
  | .closed _ broken _ => broken
  | _ => false

/-- The body is over. -/
def closes : Action → Bool
  | .closed .. => true
  | _ => false

end Action

/-- A step of the call at slot `i`, or of something else on the server. -/
inductive Beside (cfg : UploadConfig) (i : ℕ) (id : JsString) (s : UploadState) :
    Option Action → UploadState → Prop
  | own {act : Action} {t : UploadState} (hown : act.continues i = true)
      (hstep : step cfg s act = some t) : Beside cfg i id s (some act) t
  | elsewhere {t : UploadState} (hrow : t.uploads.get id = s.uploads.get id)
      (hcall : t.calls i = s.calls i) : Beside cfg i id s none t

/-- The body that arrives over a run. -/
def bodyOf (as : List (Option Action)) : List UInt8 := as.flatMap fun a => (a.map Action.data).getD []

/-- The call at slot `i` settles with `a`. -/
def Settles (i : ℕ) (s t : UploadState) (a : Answer) : Prop :=
  t.calls i = none ∧ t.answers = a :: s.answers

/-- One `PATCH` of `chunk` at `offset`, from a server where slot `i` is free to the answer. A
body that neither breaks off nor fails arrives whole. -/
inductive Exchange (cfg : UploadConfig) (i : ℕ) (id deviceId : JsString) (offset : ℕ)
    (chunk : List UInt8) (s : UploadState) : UploadState → Answer → Prop
  | refused {t : UploadState} {a : Answer} (hfree : s.calls i = none)
      (hstep : step cfg s (.append i id deviceId offset (some chunk.length)) = some t)
      (hend : Settles i s t a) : Exchange cfg i id deviceId offset chunk s t a
  | served {u v t : UploadState} {a : Answer} {as : List (Option Action)} {last : Action}
      (hfree : s.calls i = none)
      (hstep : step cfg s (.append i id deviceId offset (some chunk.length)) = some u)
      (hgoes : u.calls i ≠ none) (hrun : Run (Beside cfg i id) u as v)
      (hown : last.continues i = true) (hlast : step cfg v last = some t)
      (hend : Settles i v t a) (hbody : bodyOf (as ++ [some last]) <+: chunk)
      (hwhole : (as ++ [some last]).all (fun a => !a.any Action.breaks) = true →
        (as ++ [some last]).any (fun a => a.any Action.closes) = true →
          bodyOf (as ++ [some last]) = chunk) :
      Exchange cfg i id deviceId offset chunk s t a

/-- What an exchange may do to a session: it stops somewhere, the session still being active;
it appends the whole chunk; or it completes the session. -/
inductive Outcome (d : UploadSession) (len : ℕ) : UploadSession → Answer → Prop
  | stopped {r : ℕ} {f : Failure} (hle : d.receivedBytes ≤ r) (hr : r ≤ d.totalBytes) :
      Outcome d len { d with receivedBytes := r } (.refused f)
  | appended (hactive : d.status = .active) (hlt : d.receivedBytes + len < d.totalBytes) :
      Outcome d len { d with receivedBytes := d.receivedBytes + len }
        (.session { d with receivedBytes := d.receivedBytes + len })
  | completed (hactive : d.status = .active) :
      Outcome d len { d with receivedBytes := d.totalBytes, status := .complete }
        (.session { d with receivedBytes := d.totalBytes, status := .complete })

/-! ### A call on its way -/

/-- How far the call at slot `i` on the session `row` has come, with `body` arrived and `broke`
saying whether it broke off. -/
inductive Going (i : ℕ) (row : UploadRow) (s : UploadState) (body : List UInt8) (broke : Bool) :
    Prop
  | appending (hrow : s.uploads.get row.id = some row) (hcall : s.calls i = some (.appending row))
      (hbody : body = []) (hbroke : broke = false)
  | writing {inode received : ℕ} (hrow : s.uploads.get row.id = some row)
      (hcall : s.calls i = some (.writing row inode received false broke))
      (hge : row.received_bytes ≤ received) (hle : received ≤ row.total_bytes)
      (hflow : broke = false → received = row.received_bytes + body.length)
  | publishing {r : UploadRow} {c : Call} (hrow : s.uploads.get row.id = some r)
      (hdto : toDto r = { toDto row with receivedBytes := row.total_bytes })
      (hcall : s.calls i = some c)
      (hc : c = .resolving r ∨ (∃ d, c = .making r d) ∨ (∃ d n, c = .reserving r d n) ∨
        (∃ p, c = .renaming r p) ∨ (∃ p, c = .recording r p) ∨ ∃ p, c = .cleaning p)

variable {cfg : UploadConfig} {i : ℕ} {row : UploadRow} {s t : UploadState} {body : List UInt8}
  {broke : Bool} {act : Action}

lemma slot_of_continues {i j : ℕ} (h : decide (j = i) = true) : j = i := of_decide_eq_true h

/-- What a step of the call at slot `i` leads to: it goes on, or settles with an outcome. -/
def Leads (i : ℕ) (row : UploadRow) (s t : UploadState) (body : List UInt8) (broke : Bool)
    (len : ℕ) : Prop :=
  Going i row t body broke ∨
    ∃ a, Settles i s t a ∧ ∃ r, t.uploads.get row.id = some r ∧
      Outcome (toDto row) len (toDto r) a

/-- A call that is refused leaves its session with the bytes it has. -/
lemma leads_refused {u : UploadState} {r : UploadRow} {f : Failure} {len n : ℕ}
    (hanswers : u.answers = s.answers) (hr : u.uploads.get row.id = some r)
    (hdto : toDto r = { toDto row with receivedBytes := n })
    (hge : row.received_bytes ≤ n) (hle : n ≤ row.total_bytes) :
    Leads i row s (u.answer i (.refused f)) body broke len := by
  refine .inr ⟨.refused f, ⟨Function.update_self .., ?_⟩, r, hr, ?_⟩
  · exact congrArg (_ :: ·) hanswers
  · rw [hdto]
    exact .stopped hge hle

lemma calls_goOn (s : UploadState) (i : ℕ) (c : Call) : (s.goOn i c).calls i = some c :=
  Function.update_self ..

/-- `appendEnd` writes how much was received. -/
lemma persisted_row (hrow : s.uploads.get row.id = some row) (received : ℕ) (now : Time) :
    ∃ r, (if received ≠ row.received_bytes then persistReceived s row.id received now
        else s).uploads.get row.id = some r ∧ r.id = row.id ∧ r.device_id = row.device_id ∧
      toDto r = { toDto row with receivedBytes := received } := by
  by_cases h : received = row.received_bytes
  · rw [if_neg (not_not.mpr h)]
    exact ⟨row, hrow, rfl, rfl, by rw [h]; rfl⟩
  · rw [if_pos h]
    refine ⟨{ row with received_bytes := received, updated_at := now }, ?_, rfl, rfl, rfl⟩
    rw [persistReceived, UploadState.setUploads, Table.get_updateKey, if_pos rfl, hrow]
    rfl

/-- `persistReceived` touches neither the calls nor the answers. -/
lemma persisted_rest (s : UploadState) (row : UploadRow) (received : ℕ) (now : Time) :
    (if received ≠ row.received_bytes then persistReceived s row.id received now
        else s).calls = s.calls ∧
      (if received ≠ row.received_bytes then persistReceived s row.id received now
        else s).answers = s.answers := by
  split_ifs
  · exact ⟨rfl, rfl⟩
  · exact ⟨rfl, rfl⟩

/-- The body is over. -/
lemma leads_appendEnd {received : ℕ} {threw : Bool} {now : Time} {len : ℕ}
    (hactive : row.status = .active) (hrow : s.uploads.get row.id = some row)
    (hge : row.received_bytes ≤ received) (hle : received ≤ row.total_bytes)
    (hlen : threw = false → received = row.received_bytes + len) :
    Leads i row s (appendEnd s i row received false threw now) body threw len := by
  obtain ⟨r, hr, hid, hdev, hdto⟩ := persisted_row hrow received now
  obtain ⟨hcalls, hanswers⟩ := persisted_rest s row received now
  rw [appendEnd]
  generalize (if received ≠ row.received_bytes then persistReceived s row.id received now else s)
    = u at hr hcalls hanswers
  cases threw with
  | true => exact leads_refused hanswers hr hdto hge hle
  | false =>
      have hrequire : require u row.id row.device_id = .ok r := by
        rw [require, hr]
        exact if_pos hdev
      have hreceived : r.received_bytes = received := congrArg UploadSession.receivedBytes hdto
      have htotal : r.total_bytes = row.total_bytes := congrArg UploadSession.totalBytes hdto
      simp only [Bool.false_eq_true, if_false, hrequire]
      by_cases hall : r.received_bytes ≥ r.total_bytes
      · rw [if_pos hall, finalize]
        have hdto' : toDto r = { toDto row with receivedBytes := row.total_bytes } := by
          rw [hdto, show received = row.total_bytes by omega]
        cases writableFolder u.store r.folder_id with
        | error e => exact leads_refused hanswers hr hdto hge hle
        | ok path => exact .inl (.publishing hr hdto' (calls_goOn u i _) (.inl rfl))
      · rw [if_neg hall]
        refine .inr ⟨_, ⟨Function.update_self .., congrArg (_ :: ·) hanswers⟩, r, hr, ?_⟩
        rw [hdto, hlen rfl]
        refine .appended hactive ?_
        change row.received_bytes + len < row.total_bytes
        rw [← hlen rfl]
        omega

/-- The session is completed. -/
lemma leads_finalizeEnd {r : UploadRow} {p : JsString} {now : Time} {len : ℕ}
    (hactive : row.status = .active) (hr : s.uploads.get row.id = some r)
    (hdto : toDto r = { toDto row with receivedBytes := row.total_bytes }) :
    Leads i row s (finalizeEnd s i r p now) body broke len := by
  have hid : r.id = row.id := congrArg UploadSession.id hdto
  have htotal : r.total_bytes = row.total_bytes := congrArg UploadSession.totalBytes hdto
  have hchunk : r.chunk_size = row.chunk_size := congrArg UploadSession.chunkSize hdto
  obtain ⟨r', hr'⟩ : ∃ r', r' = { r with
      status := .complete
      rel_path := finalRel r.rel_path p
      received_bytes := r.total_bytes
      updated_at := now } := ⟨_, rfl⟩
  obtain ⟨u, hu⟩ : ∃ u, u = s.setUploads (s.uploads.updateKey r.id fun r' => { r' with
      status := .complete
      rel_path := finalRel r.rel_path p
      received_bytes := r'.total_bytes
      updated_at := now }) := ⟨_, rfl⟩
  have hget : u.uploads.get row.id = some r' := by
    rw [hu, UploadState.setUploads, hid, Table.get_updateKey, if_pos rfl, hr, hr']
    rfl
  have hend : finalizeEnd s i r p now = u.answer i (.session (toDto r')) := by
    rw [finalizeEnd, answerRow, ← hu, hid, hget]
  have hanswers : u.answers = s.answers := by rw [hu]; rfl
  have hdto' : toDto r'
      = { toDto row with receivedBytes := row.total_bytes, status := .complete } := by
    rw [hr']
    simp only [toDto, hid, htotal, hchunk]
  rw [hend]
  refine .inr ⟨_, ⟨Function.update_self .., congrArg (_ :: ·) hanswers⟩, r', hget, ?_⟩
  rw [hdto']
  exact .completed hactive

/-! ### One step of a call -/

/-- The call waits for its temp file. -/
lemma leads_appending {len : ℕ} (hrow : s.uploads.get row.id = some row)
    (hcall : s.calls i = some (.appending row)) (hle : row.received_bytes ≤ row.total_bytes)
    (hown : act.continues i = true) (hstep : step cfg s act = some t) :
    Leads i row s t act.data act.breaks len := by
  cases act with
  | openedTemp j fails =>
      obtain rfl := slot_of_continues hown
      simp only [step, hcall] at hstep
      cases hname : s.disk.names row.temp_path with
      | none =>
          simp only [hname, Option.some.injEq] at hstep
          subst hstep
          exact leads_refused rfl hrow rfl le_rfl hle
      | some inode =>
          cases fails with
          | true =>
              simp only [hname, Option.some.injEq] at hstep
              subst hstep
              exact leads_refused rfl hrow rfl le_rfl hle
          | false =>
              simp only [hname, Option.some.injEq] at hstep
              subst hstep
              exact .inl (.writing hrow (calls_goOn s _ _) le_rfl hle fun _ => rfl)
  | chunk j | closed j | resolved j | madeDir j | reserved j | renamed j | recorded j | cleaned j =>
      obtain rfl := slot_of_continues hown
      simp [step, hcall] at hstep
  | _ => cases hown

/-- The call takes the body in. -/
lemma leads_writing {inode received len : ℕ} (hactive : row.status = .active)
    (hrow : s.uploads.get row.id = some row)
    (hcall : s.calls i = some (.writing row inode received false broke))
    (hge : row.received_bytes ≤ received) (hle : received ≤ row.total_bytes)
    (hflow : broke = false → received = row.received_bytes + body.length)
    (hown : act.continues i = true) (hstep : step cfg s act = some t)
    (hfit : row.received_bytes + (body ++ act.data).length ≤ row.total_bytes)
    (hlen : (broke || act.breaks) = false → act.closes = true → body.length = len) :
    Leads i row s t (body ++ act.data) (broke || act.breaks) len := by
  cases act with
  | chunk j data written fails =>
      obtain rfl := slot_of_continues hown
      cases broke with
      | true => simp [step, hcall] at hstep
      | false =>
          have hreceived := hflow rfl
          simp only [Action.data, List.length_append] at hfit
          simp only [step, hcall] at hstep
          by_cases hdata : data = []
          · subst hdata
            rw [if_pos rfl] at hstep
            obtain rfl := Option.some.inj hstep
            simp only [Action.data, Action.breaks, List.append_nil, ne_eq, not_true_eq_false,
              decide_false, Bool.and_false, Bool.or_false]
            exact .inl (.writing hrow hcall hge hle hflow)
          · have hnot : ¬ (false = true ∨ received + data.length > row.total_bytes) := by
              rintro (h | h)
              · cases h
              · omega
            rw [if_neg hdata, if_neg hnot] at hstep
            cases fails with
            | true =>
                obtain rfl := Option.some.inj hstep
                simp only [Action.breaks, hdata, ne_eq, not_false_eq_true, decide_true,
                  Bool.and_true, Bool.or_true]
                exact .inl (.writing hrow (calls_goOn _ _ _) hge hle fun h => by cases h)
            | false =>
                obtain rfl := Option.some.inj hstep
                simp only [Action.breaks, Bool.false_and, Bool.or_false]
                refine .inl (.writing hrow (calls_goOn _ _ _) (by omega) (by omega) fun _ => ?_)
                rw [hreceived, Action.data, List.length_append, Nat.add_assoc]
  | closed j broken now =>
      obtain rfl := slot_of_continues hown
      simp only [step, hcall, Option.some.injEq] at hstep
      subst hstep
      refine leads_appendEnd hactive hrow hge hle fun hno => ?_
      rw [hflow (Bool.or_eq_false_iff.mp hno).1, hlen hno rfl]
  | openedTemp j | resolved j | madeDir j | reserved j | renamed j | recorded j | cleaned j =>
      obtain rfl := slot_of_continues hown
      simp [step, hcall] at hstep
  | _ => cases hown

/-- The call publishes the file. -/
lemma leads_publishing {r : UploadRow} {c : Call} {len : ℕ} (hactive : row.status = .active)
    (hle : row.received_bytes ≤ row.total_bytes) (hrow : s.uploads.get row.id = some r)
    (hdto : toDto r = { toDto row with receivedBytes := row.total_bytes })
    (hcall : s.calls i = some c)
    (hc : c = .resolving r ∨ (∃ d, c = .making r d) ∨ (∃ d n, c = .reserving r d n) ∨
      (∃ p, c = .renaming r p) ∨ (∃ p, c = .recording r p) ∨ ∃ p, c = .cleaning p)
    (hown : act.continues i = true) (hstep : step cfg s act = some t) :
    Leads i row s t body broke len := by
  have hrefused : ∀ (d : Disk JsString) (f : Failure),
      Leads i row s ((s.setDisk d).answer i (.refused f)) body broke len :=
    fun d f => leads_refused rfl hrow hdto hle le_rfl
  have hgoes : ∀ (u : UploadState) (c' : Call), u.uploads = s.uploads →
      (c' = .resolving r ∨ (∃ d, c' = .making r d) ∨ (∃ d n, c' = .reserving r d n) ∨
        (∃ p, c' = .renaming r p) ∨ (∃ p, c' = .recording r p) ∨ ∃ p, c' = .cleaning p) →
      Leads i row s (u.goOn i c') body broke len := by
    intro u c' hu hc'
    exact .inl (.publishing (show u.uploads.get row.id = some r from hu ▸ hrow) hdto
      (calls_goOn u i c') hc')
  rcases hc with rfl | ⟨destination, rfl⟩ | ⟨destination, n, rfl⟩ | ⟨p, rfl⟩ | ⟨p, rfl⟩ | ⟨p, rfl⟩
  · cases act with
    | resolved j answer =>
        obtain rfl := slot_of_continues hown
        cases answer with
        | error f =>
            simp only [step, hcall, Option.some.injEq] at hstep
            subst hstep
            exact hrefused s.disk f
        | ok destination =>
            simp only [step, hcall, Option.some.injEq] at hstep
            subst hstep
            exact hgoes s _ rfl (.inr (.inl ⟨_, rfl⟩))
    | openedTemp j | chunk j | closed j | madeDir j | reserved j | renamed j | recorded j
    | cleaned j =>
        obtain rfl := slot_of_continues hown
        simp [step, hcall] at hstep
    | _ => cases hown
  · cases act with
    | madeDir j fails =>
        obtain rfl := slot_of_continues hown
        simp only [step, hcall] at hstep
        split_ifs at hstep
        · obtain rfl := Option.some.inj hstep
          exact hrefused s.disk _
        · obtain rfl := Option.some.inj hstep
          exact hgoes s _ rfl (.inr (.inr (.inl ⟨_, _, rfl⟩)))
    | openedTemp j | chunk j | closed j | resolved j | reserved j | renamed j | recorded j
    | cleaned j =>
        obtain rfl := slot_of_continues hown
        simp [step, hcall] at hstep
    | _ => cases hown
  · cases act with
    | reserved j fails =>
        obtain rfl := slot_of_continues hown
        simp only [step, hcall] at hstep
        split_ifs at hstep
        · obtain rfl := Option.some.inj hstep
          exact hrefused s.disk _
        · obtain rfl := Option.some.inj hstep
          exact hgoes s _ rfl (.inr (.inr (.inl ⟨_, _, rfl⟩)))
        · obtain rfl := Option.some.inj hstep
          exact hrefused s.disk _
        · obtain rfl := Option.some.inj hstep
          exact hgoes _ _ rfl (.inr (.inr (.inr (.inl ⟨_, rfl⟩))))
    | openedTemp j | chunk j | closed j | resolved j | madeDir j | renamed j | recorded j
    | cleaned j =>
        obtain rfl := slot_of_continues hown
        simp [step, hcall] at hstep
    | _ => cases hown
  · cases act with
    | renamed j fails =>
        obtain rfl := slot_of_continues hown
        simp only [step, hcall] at hstep
        split at hstep
        · obtain rfl := Option.some.inj hstep
          exact hgoes _ _ rfl (.inr (.inr (.inr (.inr (.inl ⟨_, rfl⟩)))))
        · obtain rfl := Option.some.inj hstep
          exact hgoes s _ rfl (.inr (.inr (.inr (.inr (.inr ⟨_, rfl⟩)))))
    | openedTemp j | chunk j | closed j | resolved j | madeDir j | reserved j | recorded j
    | cleaned j =>
        obtain rfl := slot_of_continues hown
        simp [step, hcall] at hstep
    | _ => cases hown
  · cases act with
    | recorded j now =>
        obtain rfl := slot_of_continues hown
        simp only [step, hcall, Option.some.injEq] at hstep
        subst hstep
        exact leads_finalizeEnd hactive hrow hdto
    | openedTemp j | chunk j | closed j | resolved j | madeDir j | reserved j | renamed j
    | cleaned j =>
        obtain rfl := slot_of_continues hown
        simp [step, hcall] at hstep
    | _ => cases hown
  · cases act with
    | cleaned j fails =>
        obtain rfl := slot_of_continues hown
        simp only [step, hcall, Option.some.injEq] at hstep
        subst hstep
        exact hrefused _ _
    | openedTemp j | chunk j | closed j | resolved j | madeDir j | reserved j | renamed j
    | recorded j =>
        obtain rfl := slot_of_continues hown
        simp [step, hcall] at hstep
    | _ => cases hown

/-- A step of a call that is on its way. -/
lemma going_step (len : ℕ) (hactive : row.status = .active)
    (hle : row.received_bytes ≤ row.total_bytes) (hgo : Going i row s body broke)
    (hown : act.continues i = true) (hstep : step cfg s act = some t)
    (hfit : row.received_bytes + (body ++ act.data).length ≤ row.total_bytes)
    (hlen : (broke || act.breaks) = false → act.closes = true → (body ++ act.data).length = len) :
    Leads i row s t (body ++ act.data) (broke || act.breaks) len := by
  cases hgo with
  | appending hrow hcall hbody hbroke =>
      subst hbody hbroke
      exact leads_appending hrow hcall hle hown hstep
  | writing hrow hcall hge hle hflow =>
      refine leads_writing hactive hrow hcall hge hle hflow hown hstep hfit fun hno hcloses => ?_
      have hdata : act.data = [] := by cases act <;> first | rfl | cases hcloses
      rw [← hlen hno hcloses, hdata, List.append_nil]
  | publishing hrow hdto hcall hc =>
      exact leads_publishing hactive hle hrow hdto hcall hc hown hstep

/-! ### A whole exchange -/

lemma Going.congr (h : Going i row s body broke) (hrow : t.uploads.get row.id = s.uploads.get row.id)
    (hcall : t.calls i = s.calls i) : Going i row t body broke := by
  cases h with
  | appending hr hc hbody hbroke => exact .appending (hrow.trans hr) (hcall.trans hc) hbody hbroke
  | writing hr hc hge hle hflow => exact .writing (hrow.trans hr) (hcall.trans hc) hge hle hflow
  | publishing hr hdto hc hwhich => exact .publishing (hrow.trans hr) hdto (hcall.trans hc) hwhich

/-- A call that has settled takes no further step. -/
lemma busy_of_step (hown : act.continues i = true) (hstep : step cfg s act = some t) :
    s.calls i ≠ none := by
  intro hs
  cases act with
  | openedTemp j | chunk j | closed j | resolved j | madeDir j | reserved j | renamed j
  | recorded j | cleaned j =>
      obtain rfl := slot_of_continues hown
      simp [step, hs] at hstep
  | _ => cases hown

lemma idle_of_run {u v : UploadState} {id : JsString} {as : List (Option Action)}
    (h : Run (Beside cfg i id) u as v) (hidle : u.calls i = none) : v.calls i = none := by
  refine h.invariant (I := fun s => s.calls i = none) (fun s a t hs hstep => ?_) hidle
  cases hstep with
  | elsewhere _ hcall => exact hcall.trans hs
  | own hown hact => exact absurd hs (busy_of_step hown hact)

lemma going_run {u v : UploadState} {as : List (Option Action)} (hactive : row.status = .active)
    (hle : row.received_bytes ≤ row.total_bytes) (hrun : Run (Beside cfg i row.id) u as v)
    (hv : v.calls i ≠ none) (hgo : Going i row u body broke)
    (hfit : row.received_bytes + (body ++ bodyOf as).length ≤ row.total_bytes) :
    Going i row v (body ++ bodyOf as) (broke || as.any fun a => a.any Action.breaks) := by
  induction hrun generalizing body broke with
  | nil s =>
      rw [bodyOf, List.flatMap_nil, List.append_nil, List.any_nil, Bool.or_false]
      exact hgo
  | @cons s t v a as hstep hrun ih =>
      cases hstep with
      | elsewhere hrow hcall => exact ih hv (hgo.congr hrow hcall) hfit
      | @own act _ hown hact =>
          have hcons : bodyOf (some act :: as) = act.data ++ bodyOf as := rfl
          rw [hcons, ← List.append_assoc] at hfit ⊢
          have hfit' : row.received_bytes + (body ++ act.data).length ≤ row.total_bytes := by
            rw [List.length_append] at hfit
            omega
          rcases going_step _ hactive hle hgo hown hact hfit' (fun _ _ => rfl) with hgo | ⟨a, hend, -⟩
          · have h := ih hv hgo hfit
            rwa [Bool.or_assoc] at h
          · exact absurd (idle_of_run hrun hend.1) hv

/-- The declared length was checked against what is left. -/
lemma fits_of_appendCheck {uploadId deviceId : JsString} {offset n : ℕ} {r : UploadRow}
    (h : appendCheck s uploadId deviceId offset (some n) = .ok r) : offset + n ≤ r.total_bytes := by
  rw [appendCheck] at h
  cases hreq : require s uploadId deviceId with
  | error e =>
      simp only [hreq] at h
      cases h
  | ok r' =>
      simp only [hreq, Option.any_some, decide_eq_true_eq] at h
      split_ifs at h
      obtain rfl := Except.ok.inj h
      omega

/-- **One exchange.** Whatever the disk answers and the server does beside, a `PATCH` stops
somewhere with its session as it stood, appends the whole chunk, or completes the session; the
last two only at the offset the session has. -/
theorem exchange_outcome {deviceId : JsString} {offset : ℕ} {chunk : List UInt8} {a : Answer}
    (h : Exchange cfg i row.id deviceId offset chunk s t a) (hrow : s.uploads.get row.id = some row)
    (hle : row.received_bytes ≤ row.total_bytes) :
    ∃ r, t.uploads.get row.id = some r ∧ Outcome (toDto row) chunk.length (toDto r) a ∧
      ((∃ f, a = .refused f) ∨ offset = row.received_bytes) := by
  cases h with
  | refused hfree hstep hend =>
      cases hcheck : appendCheck s row.id deviceId offset (some chunk.length) with
      | error e =>
          simp only [step, hfree, hcheck, Option.some.injEq] at hstep
          subst hstep
          obtain ⟨rfl, -⟩ := List.cons.inj hend.2
          exact ⟨row, hrow, .stopped le_rfl hle, .inl ⟨_, rfl⟩⟩
      | ok r =>
          simp only [step, hfree, hcheck, Option.some.injEq] at hstep
          subst hstep
          cases (calls_goOn s i _).symm.trans hend.1
  | @served u v _ _ as last hfree hstep hgoes hrun hown hlast hend hbody hwhole =>
      cases hcheck : appendCheck s row.id deviceId offset (some chunk.length) with
      | error e =>
          simp only [step, hfree, hcheck, Option.some.injEq] at hstep
          subst hstep
          exact absurd (Function.update_self ..) hgoes
      | ok r =>
          simp only [step, hfree, hcheck, Option.some.injEq] at hstep
          subst hstep
          obtain ⟨hr, hactive, hoffset⟩ := appendCheck_eq_ok hcheck
          obtain rfl := Option.some.inj (hr.symm.trans hrow)
          have hfits := fits_of_appendCheck hcheck
          have hlen := hbody.length_le
          have hsplit : bodyOf (as ++ [some last]) = bodyOf as ++ last.data := by
            simp [bodyOf]
          rw [hsplit] at hlen hwhole
          have hfit : r.received_bytes + (bodyOf as ++ last.data).length ≤ r.total_bytes := by
            omega
          have hgo := going_run hactive hle hrun (busy_of_step hown hlast)
            (.appending hrow (calls_goOn s i _) rfl rfl) (by
              rw [List.nil_append]
              rw [List.length_append] at hfit
              omega)
          rw [List.nil_append, Bool.false_or] at hgo
          have hresult := going_step chunk.length hactive hle hgo hown hlast hfit
            fun hno hcloses => congrArg List.length (hwhole (by simpa [List.all_eq_not_any_not,
              Bool.or_eq_false_iff] using hno) (by simp [hcloses]))
          rcases hresult with hgo' | ⟨b, hend', hout⟩
          · cases hgo' with
            | appending _ hcall => cases hcall.symm.trans hend.1
            | writing _ hcall => cases hcall.symm.trans hend.1
            | publishing _ _ hcall => cases hcall.symm.trans hend.1
          · obtain ⟨rfl, -⟩ := List.cons.inj (hend.2.symm.trans hend'.2)
            obtain ⟨r', hr', hout⟩ := hout
            exact ⟨r', hr', hout, .inr hoffset⟩

/-- An exchange exhibited by evaluation: the steps `acts` and `last` of the call alone. -/
lemma exists_exchange_of_exec {id deviceId : JsString} {offset : ℕ} {chunk : List UInt8}
    {a : Answer} (acts : List Action) (last : Action) (p : UploadState → Bool)
    (hfree : s.calls i = none)
    (hown : (acts ++ [last]).all (Action.continues i) = true)
    (hbody : bodyOf ((acts ++ [last]).map some) = chunk)
    (h : (step cfg s (.append i id deviceId offset (some chunk.length))).any (fun u =>
      (u.calls i).isSome && (exec (step cfg) u acts).any fun v =>
        (step cfg v last).any fun t =>
          (t.calls i).isNone && t.answers = a :: v.answers && p t) = true) :
    ∃ t, Exchange cfg i id deviceId offset chunk s t a ∧ p t = true := by
  rw [Option.any_eq_true] at h
  obtain ⟨u, hstep, h⟩ := h
  rw [Bool.and_eq_true, Option.any_eq_true] at h
  obtain ⟨hgoes, v, hexec, h⟩ := h
  rw [Option.any_eq_true] at h
  obtain ⟨t, hlast, h⟩ := h
  simp only [Bool.and_eq_true, Option.isNone_iff_eq_none, decide_eq_true_eq] at h
  rw [List.all_append, Bool.and_eq_true, List.all_cons, List.all_nil, Bool.and_true] at hown
  have hmap : acts.map some ++ [some last] = (acts ++ [last]).map some := by simp
  have hrun : Run (Beside cfg i id) u (acts.map some) v := by
    have hacts := hown.1
    have hrun := exec_eq_some_iff.mp hexec
    clear hexec hmap hbody hown hlast hgoes hstep
    induction hrun with
    | nil s => exact .nil s
    | cons hstep _ ih =>
        rw [List.all_cons, Bool.and_eq_true] at hacts
        exact .cons (.own hacts.1 hstep) (ih h hacts.2)
  exact ⟨t, .served hfree hstep (Option.isSome_iff_ne_none.mp hgoes) hrun hown.2 hlast h.1
    (by rw [hmap, hbody]) (fun _ _ => by rw [hmap, hbody]), h.2⟩

end LocalCast.Uploads
