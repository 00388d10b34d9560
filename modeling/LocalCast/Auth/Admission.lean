import LocalCast.Auth.RateLimit

/-!
What the limiter in front of pairing admits.

* `Calls`: the calls of a limiter that is neither reset nor told to forget a code.
* `sound_step`, `CodeChange.over`: what every call keeps.
* `LimitsHold`: no more attempts are admitted in an interval than a bucket allows, none on a code
  under back-off, and every one that waited as long as it was told.
* `limits_hold`: the limits hold in every run, whatever is evicted on the way.
-/

namespace LocalCast.Auth.RateLimit

open JsString Runs TokenBucket

/-- The calls of a limiter that forgets nothing on request. -/
def Calls (opts : RateLimitOptions) (toUpperCase : JsString → JsString) :
    Timed → Event → Timed → Prop :=
  Within (fun _ e => e.call.keeps = true) (Performs opts toUpperCase)

/-- Calls about anything but one bucket. -/
def Others (opts : RateLimitOptions) (toUpperCase : JsString → JsString) (i : BucketId) :
    Timed → Event → Timed → Prop :=
  Within (fun _ e => e.call.target toUpperCase ≠ some i) (Calls opts toUpperCase)

/-- An attempt on a bucket. -/
def Event.attempts (toUpperCase : JsString → JsString) (i : BucketId) (e : Event) : Prop :=
  e.call.isAttempt = true ∧ e.call.target toUpperCase = some i

instance (toUpperCase : JsString → JsString) (i : BucketId) (e : Event) :
    Decidable (e.attempts toUpperCase i) := inferInstanceAs (Decidable (_ ∧ _))

/-- An attempt on a bucket that was admitted. -/
def Event.admits (toUpperCase : JsString → JsString) (i : BucketId) (e : Event) : Bool :=
  decide (e.attempts toUpperCase i) && e.answer.isOk

/-- When an attempt is decided. -/
def Event.time (e : Event) : ℚ := e.now.update

/-- The limits, after the calls `es` have led to `s`. -/
structure LimitsHold (opts : RateLimitOptions) (toUpperCase : JsString → JsString)
    (es : List Event) (s : Timed) : Prop where
  bounded : ∀ i lo d, 0 ≤ d →
    (admitted (Event.admits toUpperCase i) Event.time lo (lo + d) es : ℚ) ≤
      (opts.rate i).capacity * (1 + d / (opts.rate i).window)
  backedOff : ∀ code later t e u, Run (Calls opts toUpperCase) s later t →
    Performs opts toUpperCase t e u → e.call = .checkCode code → e.answer = .ok () →
    s.limiter.blockedUntil (.code (toUpperCase code)) ≤ e.now.block
  retried : ∀ i e t denial, Performs opts toUpperCase s e t → e.attempts toUpperCase i →
    e.answer = .error denial → t.limiter.blockedUntil i ≤ e.now.block →
    ∀ between u e' v, Run (Others opts toUpperCase i) t between u →
      Performs opts toUpperCase u e' v → e'.attempts toUpperCase i →
      1 ≤ (opts.rate i).capacity → e.time + denial.retryAfterMs ≤ e'.time → e'.answer = .ok ()

section Laws

variable {opts : RateLimitOptions} {toUpperCase : JsString → JsString} {s t u : Timed}
  {e : Event} {i : BucketId} {now : Readings} {o o' : Option CodeState}

/-! ### What every call keeps -/

lemma fits_step (hs : Sound opts s) (h : Performs opts toUpperCase s e t)
    (hkeeps : e.call.keeps = true) (i : BucketId) :
    Fits (t.limiter.bucket i) e.now.update := by
  have hfits := (hs.fits i).mono (h.1.trans e.now.evict_le_update)
  by_cases hid : e.call.target toUpperCase = some i
  · cases hattempt : e.call.isAttempt with
    | true =>
        obtain ⟨b, hb⟩ := attempt_spec hs h hattempt hid
        obtain ⟨htokens, hupdated⟩ := hb.fits b rfl
        by_cases hblocked : e.now.block < t.limiter.blockedUntil i
        · rw [(hb.blocked hblocked).1]
          exact hb.fits
        · rw [(hb.free (not_lt.mp hblocked)).1]
          intro b' hb'
          obtain rfl := Option.mem_some.mp hb'
          exact ⟨tokens_take htokens hupdated, updatedAt_take.le⟩
    | false =>
        rw [penalise_spec h hattempt hkeeps hid]
        intro b hb
        obtain ⟨b', hb', rfl⟩ := Option.mem_map.mp hb
        exact ⟨(hfits b' hb').1, le_rfl⟩
  · exact (other_spec h hkeeps hid).fits hfits

/-- Doubling a wait shortens it only where there is none. -/
lemma penalty_succ (opts : RateLimitOptions) (n : ℕ) :
    penalty opts n ≤ penalty opts (n + 1) ∨ penalty opts n ≤ 0 := by
  rcases le_or_gt 0 opts.backoffBaseMs with hbase | hbase
  · left
    refine min_le_min_left _ (mul_le_mul_of_nonneg_left ?_ hbase)
    exact pow_le_pow_right₀ one_le_two (Nat.sub_le_sub_right n.le_succ 1)
  · right
    refine (min_le_right _ _).trans ?_
    exact mul_nonpos_of_nonpos_of_nonneg hbase.le (by positivity)

lemma CodeChange.blocked (h : CodeChange opts now o o')
    (hmax : opts.backoffMaxMs ≤ max opts.idleEvictMs opts.code.window) (hnow : 0 ≤ now.create)
    (hold : ∀ st ∈ o, st.blockedUntil ≤ st.updatedAt + max opts.idleEvictMs opts.code.window) :
    ∀ st ∈ o', st.blockedUntil ≤ st.updatedAt + max opts.idleEvictMs opts.code.window := by
  intro st' hst'
  have hwindow := opts.code.window_pos.trans_le (le_max_right opts.idleEvictMs opts.code.window)
  cases h with
  | same => exact hold st' hst'
  | evicted hidle => exact absurd hst' (Option.not_mem_none _)
  | created hfailures hblocked hupdated hidle =>
      obtain rfl := Option.mem_some.mp hst'
      rw [hblocked]
      linarith
  | @attempted st b hupdated =>
      obtain rfl := Option.mem_some.mp hst'
      exact (hold st rfl).trans (add_le_add_left hupdated _)
  | @penalised st =>
      obtain rfl := Option.mem_some.mp hst'
      have hpenalty : penalty opts (st.failures + 1) ≤ _ := min_le_left _ _
      have hupdate := now.block_le
      simp only
      linarith

lemma CodeChange.penalised_step (h : CodeChange opts now o o') {clock : ℚ}
    (hclock : 0 ≤ clock) (hnow : clock ≤ now.evict)
    (hold : ∀ st ∈ o, st.blockedUntil ≤ clock ∨
      st.blockedUntil ≤ clock + penalty opts st.failures) :
    ∀ st ∈ o', st.blockedUntil ≤ now.update ∨
      st.blockedUntil ≤ now.update + penalty opts st.failures := by
  intro st' hst'
  have hle : clock ≤ now.update := hnow.trans now.evict_le_update
  have hmove : ∀ st ∈ o, st.blockedUntil ≤ now.update ∨
      st.blockedUntil ≤ now.update + penalty opts st.failures := by
    intro st hst
    rcases hold st hst with hover | hlast
    · exact .inl (hover.trans hle)
    · exact .inr (hlast.trans (add_le_add_left hle _))
  cases h with
  | same => exact hmove st' hst'
  | evicted hidle => exact absurd hst' (Option.not_mem_none _)
  | created hfailures hblocked hupdated hidle =>
      obtain rfl := Option.mem_some.mp hst'
      exact .inl (hblocked.le.trans (hclock.trans hle))
  | @attempted st b hupdated =>
      obtain rfl := Option.mem_some.mp hst'
      exact hmove st rfl
  | @penalised st =>
      obtain rfl := Option.mem_some.mp hst'
      exact .inr (add_le_add_left now.block_le _)

/-- **A limiter stays sound**, if no back-off outlasts an idle entry. -/
theorem sound_step (hmax : opts.backoffMaxMs ≤ max opts.idleEvictMs opts.code.window)
    (hs : Sound opts s) (h : Calls opts toUpperCase s e t) : Sound opts t := by
  obtain ⟨hkeeps, h⟩ := h
  have hclock : t.clock = e.now.update := h.2.1
  have hcreate : 0 ≤ e.now.create := hs.clock_nonneg.trans (h.1.trans e.now.evict_le)
  refine ⟨?_, ?_, ?_, ?_⟩
  · rw [hclock]
    exact hs.clock_nonneg.trans (h.1.trans e.now.evict_le_update)
  · intro i
    rw [hclock]
    exact fits_step hs h hkeeps i
  · intro key
    exact (code_change hs h hkeeps key).blocked hmax hcreate (hs.blocked key)
  · intro key
    rw [hclock]
    exact (code_change hs h hkeeps key).penalised_step hs.clock_nonneg h.1 (hs.penalised key)

lemma sound_create (opts : RateLimitOptions) (hnow : 0 ≤ now.create) :
    Sound opts (create opts now) := by
  have hclock : 0 ≤ now.update := hnow.trans (now.create_le.trans now.block_le)
  refine ⟨hclock, ?_, ?_, ?_⟩
  · intro i b hb
    cases i with
    | global =>
        obtain rfl := Option.mem_some.mp hb
        exact ⟨opts.global.capacity_pos.le, now.create_le.trans now.block_le⟩
    | anon =>
        obtain rfl := Option.mem_some.mp hb
        exact ⟨opts.anon.capacity_pos.le, le_rfl⟩
    | peer p => exact absurd hb (Option.not_mem_none _)
    | code key => exact absurd hb (Option.not_mem_none _)
  · intro key st hst
    exact absurd hst (Option.not_mem_none _)
  · intro key st hst
    exact absurd hst (Option.not_mem_none _)

/-! ### The bound -/

lemma isOk_verdict (wait : ℤ) (message : String) :
    (verdict wait message).isOk = !decide (0 < wait) := by
  by_cases h : 0 < wait
  · rw [verdict, if_pos h, decide_eq_true h]
    rfl
  · rw [verdict, if_neg h, decide_eq_false h]
    rfl

/-- **The limiter is a meter** for each of its buckets. -/
lemma meter (hmax : opts.backoffMaxMs ≤ max opts.idleEvictMs opts.code.window)
    (toUpperCase : JsString → JsString) (i : BucketId) :
    Meter (opts.rate i) (Calls opts toUpperCase) (Sound opts)
      (fun s => s.limiter.bucket i) Timed.clock Event.time (Event.admits toUpperCase i) where
  kept s e t hs h := sound_step hmax hs h
  timed s e t hs h := ⟨h.2.1.trans e.now.evict_le_update, h.2.2.1⟩
  fits s hs := hs.fits i
  charged s e t hs h := by
    obtain ⟨hkeeps, h⟩ := h
    have hupdate : e.now.evict ≤ e.time := e.now.evict_le_update
    have hfits := hs.fits i
    by_cases hid : e.call.target toUpperCase = some i
    · cases hattempt : e.call.isAttempt with
      | true =>
          obtain ⟨b, hb⟩ := attempt_spec hs h hattempt hid
          have hlevel := hb.level e.now.update le_rfl
          have hattempts : e.attempts toUpperCase i := ⟨hattempt, hid⟩
          rw [Event.admits, decide_eq_true hattempts, Bool.true_and]
          by_cases hblocked : e.now.block < t.limiter.blockedUntil i
          · obtain ⟨hafter, d, hanswer⟩ := hb.blocked hblocked
            have hrefused : e.answer.isOk = false := hanswer ▸ rfl
            rw [hafter, hrefused, if_neg Bool.false_ne_true, add_zero]
            exact hlevel.le
          · obtain ⟨hafter, message, hanswer⟩ := hb.free (not_lt.mp hblocked)
            have htake := level_take (r := opts.rate i) (b := b) (t := e.now.update)
            rw [hlevel] at htake
            rw [hafter, hanswer, isOk_verdict]
            refine le_of_eq (Eq.trans ?_ htake)
            by_cases hwait : 0 < (take (opts.rate i) b e.now.update).2 <;> simp [hwait, Event.time]
      | false =>
          have hnot : ¬ e.attempts toUpperCase i := fun h => by simp [h.1] at hattempt
          have hnone : e.admits toUpperCase i = false := by
            rw [Event.admits, decide_eq_false hnot, Bool.false_and]
          rw [hnone, if_neg Bool.false_ne_true, add_zero, penalise_spec h hattempt hkeeps hid]
          cases hbucket : s.limiter.bucket i with
          | none => exact le_rfl
          | some b => exact level_moved ((hfits b hbucket).2.trans (h.1.trans hupdate))
    · have hnone : e.admits toUpperCase i = false := by
        rw [Event.admits, decide_eq_false (fun h => hid h.2), Bool.false_and]
      rw [hnone, if_neg Bool.false_ne_true, add_zero]
      exact ((other_spec h hkeeps hid).same_level hfits hupdate).le

/-! ### Back-off -/

/-- A back-off is over by now, or still in force. -/
lemma CodeChange.over (h : CodeChange opts now o o') {clock B : ℚ}
    (hclock : 0 ≤ clock) (hnow : clock ≤ now.evict)
    (hblocked : ∀ st ∈ o, st.blockedUntil ≤ st.updatedAt + max opts.idleEvictMs opts.code.window)
    (hpenalised : ∀ st ∈ o, st.blockedUntil ≤ clock ∨
      st.blockedUntil ≤ clock + penalty opts st.failures)
    (hB : B ≤ clock ∨ B ≤ o.elim 0 CodeState.blockedUntil) :
    B ≤ now.block ∨ B ≤ o'.elim 0 CodeState.blockedUntil := by
  have hevict : now.evict ≤ now.block := now.evict_le.trans now.create_le
  rcases hB with hB | hB
  · exact .inl (hB.trans (hnow.trans hevict))
  · cases h with
    | same => exact .inr hB
    | @evicted st hidle => exact .inl (hB.trans ((hblocked st rfl).trans (hidle.le.trans hevict)))
    | created hfailures hblocked' hupdated hidle =>
        cases o with
        | none => exact .inl (hB.trans (hclock.trans (hnow.trans hevict)))
        | some st =>
            exact .inl (hB.trans ((hblocked st rfl).trans ((hidle st rfl).le.trans hevict)))
    | attempted hupdated => exact .inr hB
    | @penalised st =>
        rcases hpenalised st rfl with hover | hlast
        · exact .inl (hB.trans (hover.trans (hnow.trans hevict)))
        · rcases penalty_succ opts st.failures with hlonger | hnone
          · right
            calc B
                ≤ clock + penalty opts st.failures := hB.trans hlast
              _ ≤ now.block + penalty opts (st.failures + 1) :=
                  add_le_add (hnow.trans hevict) hlonger
          · left
            calc B
                ≤ clock + penalty opts st.failures := hB.trans hlast
              _ ≤ clock := add_le_of_nonpos_right hnone
              _ ≤ now.block := hnow.trans hevict

/-- The back-off of a code, `B` being one it had. -/
lemma over_step {key : JsString} {B : ℚ} (hs : Sound opts s) (h : Calls opts toUpperCase s e t)
    (hB : B ≤ s.clock ∨ B ≤ s.limiter.blockedUntil (.code key)) :
    B ≤ e.now.block ∨ B ≤ t.limiter.blockedUntil (.code key) :=
  (code_change hs h.2 h.1 key).over hs.clock_nonneg h.2.1 (hs.blocked key) (hs.penalised key) hB

/-- A code is not admitted while its back-off lasts. -/
lemma le_of_admitted (hs : Sound opts s) (h : Performs opts toUpperCase s e t) {code : JsString}
    (hcall : e.call = .checkCode code) (hanswer : e.answer = .ok ()) :
    t.limiter.blockedUntil (.code (toUpperCase code)) ≤ e.now.block := by
  obtain ⟨b, hb⟩ := attempt_spec hs h (by rw [hcall]; rfl)
    (show e.call.target toUpperCase = some (.code (toUpperCase code)) by rw [hcall]; rfl)
  by_contra hblocked
  obtain ⟨-, d, hrefused⟩ := hb.blocked (not_le.mp hblocked)
  rw [hanswer] at hrefused
  cases hrefused

/-! ### Waiting -/

/-- Who is refused for want of a token is told how long to wait for one. -/
lemma refused (hs : Sound opts s) (h : Performs opts toUpperCase s e t)
    (hattempts : e.attempts toUpperCase i) {denial : Denial} (hanswer : e.answer = .error denial)
    (hfree : t.limiter.blockedUntil i ≤ e.now.block) :
    ∃ b, t.limiter.bucket i = some (take (opts.rate i) b e.time).1 ∧
      0 < (take (opts.rate i) b e.time).2 ∧
      denial.retryAfterMs = (take (opts.rate i) b e.time).2 := by
  obtain ⟨b, hb⟩ := attempt_spec hs h hattempts.1 hattempts.2
  obtain ⟨hafter, message, hverdict⟩ := hb.free hfree
  refine ⟨b, hafter, ?_⟩
  rw [hanswer, verdict] at hverdict
  split_ifs at hverdict with hwait
  · cases hverdict
    exact ⟨hwait, rfl⟩

/-- A bucket that has a token to give at `τ`, and is not kept from it by a back-off. -/
structure Ready (opts : RateLimitOptions) (i : BucketId) (τ : ℚ) (s : Timed) : Prop where
  sound : Sound opts s
  token : s.clock ≤ τ → 1 ≤ level (opts.rate i) (s.limiter.bucket i) τ
  free : s.limiter.blockedUntil i ≤ s.clock

lemma blockedUntil_other (hs : Sound opts s) (h : Calls opts toUpperCase s e t)
    (hid : e.call.target toUpperCase ≠ some i) (hfree : s.limiter.blockedUntil i ≤ s.clock) :
    t.limiter.blockedUntil i ≤ t.clock := by
  have hle : s.clock ≤ t.clock := h.2.2.1 ▸ h.2.1.trans e.now.evict_le_update
  cases i with
  | code key =>
      rw [RateLimiter.blockedUntil] at hfree ⊢
      rcases code_other h.2 h.1 hid with hsame | ⟨hgone, -⟩
      · rw [hsame]
        exact hfree.trans hle
      · rw [hgone]
        exact hs.clock_nonneg.trans hle
  | global | anon | peer p => exact hs.clock_nonneg.trans hle

/-- Calls about something else leave a bucket ready. -/
lemma ready_step (hmax : opts.backoffMaxMs ≤ max opts.idleEvictMs opts.code.window) {τ : ℚ}
    (hs : Ready opts i τ s) (h : Others opts toUpperCase i s e t) : Ready opts i τ t := by
  obtain ⟨hid, h⟩ := h
  refine ⟨sound_step hmax hs.sound h, ?_, blockedUntil_other hs.sound h hid hs.free⟩
  intro hτ
  rw [h.2.2.1] at hτ
  have hevict := e.now.evict_le_update.trans hτ
  rw [(other_spec h.2 h.1 hid).same_level (hs.sound.fits i) hevict]
  exact hs.token (h.2.1.trans hevict)

/-- An attempt starts no back-off. -/
lemma blockedUntil_attempt (hs : Sound opts s) (h : Performs opts toUpperCase s e t)
    (hattempts : e.attempts toUpperCase i) (hfree : s.limiter.blockedUntil i ≤ s.clock) :
    t.limiter.blockedUntil i ≤ e.now.block := by
  have hnow := hs.block_nonneg h
  have hblock : s.clock ≤ e.now.block := h.1.trans (e.now.evict_le.trans e.now.create_le)
  obtain ⟨hattempt, hid⟩ := hattempts
  cases i with
  | global | anon | peer p => exact hnow
  | code key =>
      cases hcall : e.call with
      | checkCode code =>
          rw [hcall] at hid
          cases hid
          obtain ⟨b, -, hcodes⟩ := checkCode_fst opts toUpperCase s.limiter code e.now
          have hlimiter : _ = t.limiter := congrArg Prod.fst h.2.2
          rw [hcall, perform, hcodes] at hlimiter
          rw [← hlimiter, (code_put _ _ _ _).2]
          rcases codeState_cases opts s.limiter (toUpperCase code) e.now with hold | ⟨hnew, -⟩
          · rw [RateLimiter.blockedUntil, hold] at hfree
            exact hfree.trans hblock
          · rw [hnew]
            exact hnow
      | checkPeer peer =>
          rw [hcall, Call.target] at hid
          cases hpeer : identified peer with
          | none => rw [hpeer] at hid; cases hid
          | some p => rw [hpeer] at hid; cases hid
      | checkGlobal => rw [hcall] at hid; cases hid
      | penaliseCode code => rw [hcall] at hattempt; cases hattempt
      | clearCode code => rw [hcall] at hattempt; cases hattempt
      | reset => rw [hcall] at hattempt; cases hattempt

/-- An attempt on a bucket that is ready is admitted. -/
lemma Ready.admitted (hs : Ready opts i e.time s) (h : Performs opts toUpperCase s e t)
    (hattempts : e.attempts toUpperCase i) : e.answer = .ok () := by
  obtain ⟨b, hb⟩ := attempt_spec hs.sound h hattempts.1 hattempts.2
  have hfree := blockedUntil_attempt hs.sound h hattempts hs.free
  obtain ⟨-, message, hanswer⟩ := hb.free hfree
  have hlevel : 1 ≤ refill (opts.rate i) b e.now.update := by
    rw [hb.level _ le_rfl]
    exact hs.token (h.1.trans e.now.evict_le_update)
  rw [hanswer, verdict, if_neg]
  intro hwait
  exact absurd (wait_pos_iff.mp hwait) (not_lt.mpr hlevel)

/-! ### The limits -/

end Laws

lemma keeps_of_isAttempt {c : Call} (h : c.isAttempt = true) : c.keeps = true := by
  cases c with
  | checkGlobal | checkPeer peer | checkCode code => rfl
  | penaliseCode code | clearCode code | reset => cases h

/-- **The limits hold** in every run of a limiter that is not told to forget, whatever it evicts on
the way, if no back-off outlasts an idle entry. -/
theorem limits_hold {opts : RateLimitOptions} {toUpperCase : JsString → JsString} {now : Readings}
    {es : List Event} {s : Timed} (hnow : 0 ≤ now.create)
    (hmax : opts.backoffMaxMs ≤ max opts.idleEvictMs opts.code.window)
    (h : Run (Calls opts toUpperCase) (create opts now) es s) :
    LimitsHold opts toUpperCase es s := by
  have hkeep : ∀ s e t, Sound opts s → Calls opts toUpperCase s e t → Sound opts t :=
    fun _ _ _ hs hstep => sound_step hmax hs hstep
  have hs : Sound opts s := h.invariant hkeep (sound_create opts hnow)
  refine ⟨?_, ?_, ?_⟩
  · intro i lo d hd
    exact (meter hmax toUpperCase i).admitted_le (sound_create opts hnow) h hd
  · intro code later t e u hlater hstep hcall hanswer
    have hover : Sound opts t ∧ (s.limiter.blockedUntil (.code (toUpperCase code)) ≤ t.clock ∨
        s.limiter.blockedUntil (.code (toUpperCase code)) ≤
          t.limiter.blockedUntil (.code (toUpperCase code))) := by
      refine hlater.invariant (I := fun t => Sound opts t ∧
        (s.limiter.blockedUntil (.code (toUpperCase code)) ≤ t.clock ∨
          s.limiter.blockedUntil (.code (toUpperCase code)) ≤
            t.limiter.blockedUntil (.code (toUpperCase code)))) ?_ ⟨hs, .inr le_rfl⟩
      rintro t e u ⟨ht, hB⟩ hcall
      refine ⟨hkeep t e u ht hcall, ?_⟩
      rcases over_step ht hcall hB with hover | hlast
      · exact .inl (hcall.2.2.1 ▸ hover.trans e.now.block_le)
      · exact .inr hlast
    have hkeeps : e.call.keeps = true := by rw [hcall]; rfl
    rcases over_step hover.1 ⟨hkeeps, hstep⟩ hover.2 with hdone | hlast
    · exact hdone
    · exact hlast.trans (le_of_admitted hover.1 hstep hcall hanswer)
  · intro i e t denial hstep hattempts hanswer hfree between u e' v hbetween hstep' hattempts'
      hone hwait
    obtain ⟨b, hbucket, hpos, hretry⟩ := refused hs hstep hattempts hanswer hfree
    rw [hretry] at hwait
    have hready : Ready opts i e'.time t := by
      refine ⟨sound_step hmax hs ⟨keeps_of_isAttempt hattempts.1, hstep⟩, fun _ => ?_, ?_⟩
      · rw [hbucket]
        exact level_retry hone hpos hwait
      · rw [hstep.2.1]
        exact hfree.trans e.now.block_le
    exact (hbetween.invariant (fun _ _ _ hs hother => ready_step hmax hs hother) hready).admitted
      hstep' hattempts'

/-- One attempt a minute at a code. -/
def oneAttempt : RateLimitOptions := { DEFAULT_RATE_LIMITS with code := perMinute 1 }

def instant (t : ℚ) : Readings := ⟨t, t, t, t, le_rfl, le_rfl, le_rfl⟩

/-- Trying a code, the clock standing still meanwhile. -/
def tryCode (s : Timed) (t : ℚ) : Event × Timed :=
  let called := checkCode oneAttempt id s.limiter (js "AB23") (instant t)
  (⟨.checkCode (js "AB23"), instant t, called.2⟩, ⟨called.1, t⟩)

lemma performs_tryCode {s : Timed} {t : ℚ} (h : s.clock ≤ t) :
    Performs oneAttempt id s (tryCode s t).1 (tryCode s t).2 := ⟨h, rfl, rfl⟩

/-- A code is tried, and tried again at once. -/
def tried : Event × Timed := tryCode (create oneAttempt (instant 0)) 0

def triedAgain : Event × Timed := tryCode tried.2 0

/-- A code is tried, once too often, and again after a minute: the limits hold, and have the last
attempt admitted. -/
theorem limits_hold_triedAgain : LimitsHold oneAttempt id [tried.1] tried.2 ∧
    triedAgain.1.answer = deny 60000 "Too many attempts against this code" ∧
    (tryCode triedAgain.2 60000).1.answer = .ok () := by
  have hmax : oneAttempt.backoffMaxMs ≤ max oneAttempt.idleEvictMs oneAttempt.code.window := by
    decide +kernel
  have htried : Run (Calls oneAttempt id) (create oneAttempt (instant 0)) [tried.1] tried.2 :=
    .single ⟨rfl, performs_tryCode (by decide)⟩
  have hlimits := limits_hold (by decide) hmax htried
  have hrefused : triedAgain.1.answer = deny 60000 "Too many attempts against this code" := by
    decide +kernel
  refine ⟨hlimits, hrefused, ?_⟩
  exact hlimits.retried (.code (js "AB23")) triedAgain.1 triedAgain.2 _
    (performs_tryCode (by decide)) ⟨rfl, rfl⟩ hrefused (by decide) [] triedAgain.2 _
    _ (.nil _) (performs_tryCode (by decide)) ⟨rfl, rfl⟩ (by decide)
    (by decide +kernel)

end LocalCast.Auth.RateLimit
