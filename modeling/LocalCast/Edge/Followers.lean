import LocalCast.Edge.Status
import LocalCast.Foundations.Runs

/-!
The followers of the status: `Get`, `Subscribe` and `commitLocked` of `internal/edge/state.go`,
`handleStatusStream` of `internal/control/server.go` and `forwardStatus` of `cmd/netedge/main.go`.

* `Follower`, `StatusStore`: a consumer with its channel, and the store whose lock a publication
  holds while it hands the snapshot round.
* `step`: commits, the single channel operations of a publication, and what the consumers do
  between them.
* `Follows`: what a channel holds at any time; `settled` says that the last snapshot of a channel
  that was served is the current one.
* `readsInTime`, `InOrder`: a consumer whose initial `Get` finds no more than one snapshot in its
  channel never goes back.
* `follower_goes_back`: two commits between subscribing and `Get`.
-/

namespace LocalCast.Edge

open Runs

/-! ### Consumers -/

/-- `subscriberBuffer`. -/
def subscriberBuffer : ℕ := 8

/-- A snapshot with the number of the commit that made it. -/
structure Stamped where
  commit : ℕ
  status : EdgeStatus
  deriving DecidableEq, Repr

/-- Where a consumer is: before its `Get`, in its loop, on its way out, and gone. -/
inductive FollowerPc
  | subscribed
  | following
  | leaving
  | left
  deriving DecidableEq, Repr

/-- A consumer of the status stream and the channel it reads, with the oldest snapshot first. What
it emitted is kept with the newest first. -/
structure Follower where
  pc : FollowerPc
  queue : List Stamped
  emitted : List Stamped
  deriving DecidableEq, Repr

namespace Follower

/-- A consumer that has just subscribed. -/
def fresh : Follower := ⟨.subscribed, [], []⟩

/-- The initial `Get`, whose answer is emitted. -/
def get (f : Follower) (cur : Stamped) : Follower :=
  { f with pc := .following, emitted := cur :: f.emitted }

/-- `case st := <-ch`. -/
def receive (f : Follower) (st : Stamped) : Follower :=
  { f with queue := f.queue.tail, emitted := st :: f.emitted }

/-- `case ch <- next`. -/
def push (f : Follower) (next : Stamped) : Follower :=
  { f with queue := f.queue ++ [next] }

/-- `case <-ch` of the publisher. -/
def evict (f : Follower) : Follower :=
  { f with queue := f.queue.tail }

end Follower

/-! ### The store -/

/-- Where `commitLocked` is with a channel: its first attempt to send, the removal of the oldest
snapshot, and its second attempt. -/
inductive SendStage
  | offer
  | evict
  | retry
  deriving DecidableEq, Repr

/-- The channels `commitLocked` has still to serve. -/
structure Publication where
  rest : List ℕ
  stage : SendStage
  deriving DecidableEq, Repr

/-- `StatusStore`, with the consumers of its channels. The lock is held while a publication is
under way. -/
structure StatusStore where
  cur : Stamped
  subs : List ℕ
  nextID : ℕ
  publishing : Option Publication
  followers : ℕ → Option Follower

/-- `NewStatusStore`. -/
def newStatusStore : StatusStore := ⟨⟨0, .fresh .stopped⟩, [], 0, none, fun _ => none⟩

namespace StatusStore

/-- What may happen next. `write` is `Update` or `Transition`, with the order in which the map of
channels is walked; `publish` is the next operation of `commitLocked`. The comparison by which
`SetPeers` and `SetCertExpiry` save a commit comes before they take the lock for it, so that a
commit may follow in any state. A consumer quits where its context is done or a write fails. -/
inductive Action
  | write (w : Write) (order : List ℕ)
  | publish
  | subscribe
  | get (id : ℕ)
  | receive (id : ℕ)
  | quit (id : ℕ)
  | cancel (id : ℕ)
  deriving DecidableEq, Repr

def setFollower (s : StatusStore) (id : ℕ) (f : Follower) : StatusStore :=
  { s with followers := Function.update s.followers id (some f) }

/-- The channels that have not been served with the current snapshot. -/
def pending (s : StatusStore) : List ℕ :=
  (s.publishing.map (·.rest)).getD []

/-- The next operation of `commitLocked` on the channel of `f`. -/
def send (s : StatusStore) (id : ℕ) (rest : List ℕ) (f : Follower) : SendStage → StatusStore
  | .offer =>
      if f.queue.length < subscriberBuffer then
        { s.setFollower id (f.push s.cur) with publishing := some ⟨rest, .offer⟩ }
      else { s with publishing := some ⟨id :: rest, .evict⟩ }
  | .evict => { s.setFollower id f.evict with publishing := some ⟨id :: rest, .retry⟩ }
  | .retry =>
      if f.queue.length < subscriberBuffer then
        { s.setFollower id (f.push s.cur) with publishing := some ⟨rest, .offer⟩ }
      else { s with publishing := some ⟨rest, .offer⟩ }

/-- The steps of the store and its consumers. -/
def step (s : StatusStore) : Action → Option StatusStore
  | .write w order =>
      if s.publishing = none ∧ order.Perm s.subs then
        match s.cur.status.apply w with
        | none => some s
        | some next =>
            some { s with
              cur := ⟨s.cur.commit + 1, next⟩
              publishing := some ⟨order, .offer⟩ }
      else none
  | .publish =>
      match s.publishing with
      | none => none
      | some ⟨[], _⟩ => some { s with publishing := none }
      | some ⟨id :: rest, stage⟩ => (s.followers id).map fun f => s.send id rest f stage
  | .subscribe =>
      if s.publishing = none then
        some { s.setFollower s.nextID .fresh with
          subs := s.nextID :: s.subs
          nextID := s.nextID + 1 }
      else none
  | .get id =>
      (s.followers id).bind fun f =>
        if s.publishing = none ∧ f.pc = .subscribed then
          some (s.setFollower id (f.get s.cur))
        else none
  | .receive id =>
      (s.followers id).bind fun f =>
        if f.pc = .following then
          f.queue.head?.map fun st => s.setFollower id (f.receive st)
        else none
  | .quit id =>
      (s.followers id).bind fun f =>
        if f.pc = .subscribed ∨ f.pc = .following then
          some (s.setFollower id { f with pc := .leaving })
        else none
  | .cancel id =>
      (s.followers id).bind fun f =>
        if s.publishing = none ∧ f.pc = .leaving then
          some { s.setFollower id { f with pc := .left } with subs := s.subs.erase id }
        else none

/-! ### The law -/

/-- What every consumer has emitted never goes back in the order of the commits, and one that has
drained its channel while nothing is being published has emitted the current snapshot last. -/
def Law (s : StatusStore) : Prop :=
  ∀ id f, s.followers id = some f →
    f.emitted.Pairwise (fun later earlier => earlier.commit ≤ later.commit) ∧
      (s.publishing = none → f.pc = .following → f.queue = [] → f.emitted.head? = some s.cur)

/-- The initial `Get` of a consumer finds no more than one snapshot in its channel. -/
def readsInTime (s : StatusStore) : Action → Bool
  | .get id => (s.followers id).all fun f => f.queue.length ≤ 1
  | _ => true

end StatusStore

/-! ### Channels -/

/-- What holds of a consumer at any time, `cur` being the current snapshot and `served` telling
whether its channel has been handed it. -/
structure Follows (cur : Stamped) (served : Prop) (f : Follower) : Prop where
  ordered : f.queue.Pairwise fun a b => a.commit < b.commit
  queued : ∀ st ∈ f.queue, st.commit ≤ cur.commit
  emitted : ∀ st ∈ f.emitted, st.commit ≤ cur.commit
  silent : f.pc = .subscribed → f.emitted = []
  unserved : ¬served → ∀ st ∈ f.queue, st.commit < cur.commit
  last : served → ∀ st, f.queue.getLast? = some st → st = cur
  settled : served → f.pc = .following → f.queue = [] → f.emitted.head? = some cur

namespace Follows

variable {cur : Stamped} {served : Prop} {f : Follower}

/-- A commit leaves every channel unserved. -/
lemma commit (h : Follows cur served f) (next : EdgeStatus) :
    Follows ⟨cur.commit + 1, next⟩ False f where
  ordered := h.ordered
  queued st hst := (h.queued st hst).trans (Nat.le_succ _)
  emitted st hst := (h.emitted st hst).trans (Nat.le_succ _)
  silent := h.silent
  unserved _ st hst := Nat.lt_succ_of_le (h.queued st hst)
  last hserved := hserved.elim
  settled hserved := hserved.elim

/-- A channel that is handed the current snapshot has been served. -/
lemma push (h : Follows cur False f) : Follows cur True (f.push cur) where
  ordered := by
    refine List.pairwise_append.mpr ⟨h.ordered, List.pairwise_singleton _ _, fun a ha b hb => ?_⟩
    rw [List.mem_singleton.mp hb]
    exact h.unserved id a ha
  queued st hst := by
    rcases List.mem_append.mp hst with hst | hst
    · exact h.queued st hst
    · rw [List.mem_singleton.mp hst]
  emitted := h.emitted
  silent := h.silent
  unserved hserved := absurd trivial hserved
  last _ st hst := by
    rw [Follower.push, List.getLast?_concat] at hst
    exact (Option.some.inj hst).symm
  settled _ _ hnil := by
    rw [Follower.push] at hnil
    exact absurd hnil (List.concat_ne_nil _ _)

/-- The oldest snapshot of a channel may go as long as the current one is still to come. -/
lemma evict (h : Follows cur False f) : Follows cur False f.evict where
  ordered := h.ordered.tail
  queued st hst := h.queued st (List.mem_of_mem_tail hst)
  emitted := h.emitted
  silent := h.silent
  unserved hserved st hst := h.unserved hserved st (List.mem_of_mem_tail hst)
  last hserved := hserved.elim
  settled hserved := hserved.elim

lemma fresh (cur : Stamped) : Follows cur served .fresh where
  ordered := .nil
  queued st hst := absurd hst List.not_mem_nil
  emitted st hst := absurd hst List.not_mem_nil
  silent _ := rfl
  unserved _ st hst := absurd hst List.not_mem_nil
  last _ st hst := absurd hst (Option.some_ne_none st).symm
  settled _ hpc := absurd hpc (by decide)

/-- The initial `Get` emits the current snapshot. -/
lemma get (h : Follows cur served f) : Follows cur served (f.get cur) where
  ordered := h.ordered
  queued := h.queued
  emitted st hst := by
    rcases List.mem_cons.mp hst with rfl | hst
    · exact le_rfl
    · exact h.emitted st hst
  silent hpc := absurd hpc (by simp [Follower.get])
  unserved := h.unserved
  last := h.last
  settled _ _ _ := rfl

/-- A consumer that takes the last snapshot of a served channel has taken the current one. -/
lemma receive {st : Stamped} {rest : List Stamped} (h : Follows cur served f)
    (hpc : f.pc = .following) (hq : f.queue = st :: rest) :
    Follows cur served (f.receive st) where
  ordered := h.ordered.tail
  queued x hx := h.queued x (List.mem_of_mem_tail hx)
  emitted x hx := by
    rcases List.mem_cons.mp hx with rfl | hx
    · exact h.queued x (by simp [hq])
    · exact h.emitted x hx
  silent hsub := by
    rw [Follower.receive, hpc] at hsub
    cases hsub
  unserved hserved x hx := h.unserved hserved x (List.mem_of_mem_tail hx)
  last hserved x hx := by
    refine h.last hserved x ?_
    rw [Follower.receive, hq, List.tail_cons] at hx
    rw [hq, List.getLast?_cons, hx, Option.getD_some]
  settled hserved _ hnil := by
    rw [Follower.receive, hq, List.tail_cons] at hnil
    have hrest : rest = [] := hnil
    have hlast := h.last hserved st (by rw [hq, hrest]; rfl)
    simp [Follower.receive, hlast]

/-- A consumer on its way out emits nothing more. -/
lemma leave {pc : FollowerPc} (h : Follows cur served f) (hs : pc ≠ .subscribed)
    (hf : pc ≠ .following) : Follows cur served { f with pc := pc } where
  ordered := h.ordered
  queued := h.queued
  emitted := h.emitted
  silent hpc := absurd hpc hs
  unserved := h.unserved
  last := h.last
  settled _ hpc := absurd hpc hf

end Follows

/-! ### What every run keeps -/

namespace StatusStore

variable {s t : StatusStore} {id : ℕ} {f f' : Follower}

lemma followers_setFollower (s : StatusStore) (id : ℕ) (f : Follower) :
    (s.setFollower id f).followers id = some f :=
  Function.update_self ..

lemma followers_setFollower_of_ne (s : StatusStore) (f : Follower) {j : ℕ} (h : j ≠ id) :
    (s.setFollower id f).followers j = s.followers j :=
  Function.update_of_ne h ..

lemma pending_of_publishing {l : List ℕ} {stage : SendStage}
    (h : s.publishing = some ⟨l, stage⟩) : s.pending = l := by
  simp [pending, h]

lemma pending_of_unlocked (h : s.publishing = none) : s.pending = [] := by
  simp [pending, h]

/-- A consumer after a change of one of them. -/
lemma of_setFollower {j : ℕ} {g : Follower} (h : (s.setFollower id f).followers j = some g) :
    j = id ∧ g = f ∨ j ≠ id ∧ s.followers j = some g := by
  change Function.update s.followers id (some f) j = some g at h
  rw [Function.update_apply] at h
  split_ifs at h with hj
  · cases h
    exact .inl ⟨hj, rfl⟩
  · exact .inr ⟨hj, h⟩

/-- The channels of the store are those of the consumers that are not gone, a publication serves
them one after the other, and what each holds is in order. -/
structure Consistent (s : StatusStore) : Prop where
  subs : s.subs.Nodup
  known : ∀ id, id ∈ s.subs ↔ ∃ f, s.followers id = some f ∧ f.pc ≠ .left
  ids : ∀ id f, s.followers id = some f → id < s.nextID
  pending : s.pending.Nodup
  unserved : ∀ id ∈ s.pending, id ∈ s.subs
  capacity : ∀ id f, s.followers id = some f → f.queue.length ≤ subscriberBuffer
  room : ∀ id rest, s.publishing = some ⟨id :: rest, .retry⟩ → ∀ f, s.followers id = some f →
    f.queue.length < subscriberBuffer
  follows : ∀ id f, s.followers id = some f → f.pc ≠ .left → Follows s.cur (id ∉ s.pending) f

lemma consistent_init : Consistent newStatusStore where
  subs := .nil
  known id := by simp [newStatusStore]
  ids id f h := by cases h
  pending := .nil
  unserved id h := by cases h
  capacity id f h := by cases h
  room id rest h := by cases h
  follows id f h := by cases h

/-- A step that changes one consumer, which is not gone, and serves no other channel. -/
lemma Consistent.setFollower (h : Consistent s) (hf : s.followers id = some f)
    (hcur : t.cur = s.cur) (hsubs : t.subs = s.subs) (hnext : t.nextID = s.nextID)
    (hfollowers : t.followers = (s.setFollower id f').followers)
    (hpending : t.pending.Nodup ∧ ∀ j, j ∈ t.pending → j ∈ s.pending)
    (hothers : ∀ j, j ≠ id → j ∈ s.pending → j ∈ t.pending)
    (hlive : f.pc ≠ .left) (hlive' : f'.pc ≠ .left)
    (hcapacity : f'.queue.length ≤ subscriberBuffer)
    (hroom : ∀ j rest, t.publishing = some ⟨j :: rest, .retry⟩ → ∀ g, t.followers j = some g →
      g.queue.length < subscriberBuffer)
    (hfollows : Follows s.cur (id ∉ t.pending) f') : Consistent t := by
  have hof {j : ℕ} {g : Follower} (hj : t.followers j = some g) :
      j = id ∧ g = f' ∨ j ≠ id ∧ s.followers j = some g := by
    rw [hfollowers] at hj
    exact of_setFollower hj
  refine ⟨hsubs ▸ h.subs, fun j => ?_, fun j g hj => ?_, hpending.1, fun j hj => ?_,
    fun j g hj => ?_, hroom, fun j g hj hg => ?_⟩
  · rw [hsubs, h.known]
    by_cases hj : j = id
    · subst hj
      rw [hfollowers, followers_setFollower]
      exact iff_of_true ⟨f, hf, hlive⟩ ⟨f', rfl, hlive'⟩
    · rw [hfollowers, followers_setFollower_of_ne s f' hj]
  · rw [hnext]
    rcases hof hj with ⟨rfl, rfl⟩ | ⟨-, hj⟩
    · exact h.ids j f hf
    · exact h.ids j g hj
  · rw [hsubs]
    exact h.unserved j (hpending.2 j hj)
  · rcases hof hj with ⟨rfl, rfl⟩ | ⟨-, hj⟩
    · exact hcapacity
    · exact h.capacity j g hj
  · rw [hcur]
    rcases hof hj with ⟨rfl, rfl⟩ | ⟨hne, hj⟩
    · exact hfollows
    · have hiff : (j ∉ s.pending) = (j ∉ t.pending) :=
        propext (not_congr ⟨hothers j hne, hpending.2 j⟩)
      exact hiff ▸ h.follows j g hj hg

/-- The same where nothing is handed out. -/
lemma Consistent.keep (h : Consistent s) (hf : s.followers id = some f) (hlive : f.pc ≠ .left)
    (hlive' : f'.pc ≠ .left) (hqueue : f'.queue.length ≤ f.queue.length)
    (hfollows : Follows s.cur (id ∉ s.pending) f') : Consistent (s.setFollower id f') := by
  refine h.setFollower hf rfl rfl rfl rfl ⟨h.pending, fun _ hj => hj⟩ (fun _ _ hj => hj) hlive
    hlive' (hqueue.trans (h.capacity id f hf)) (fun j rest hpub g hg => ?_) hfollows
  rcases of_setFollower hg with ⟨rfl, rfl⟩ | ⟨-, hg⟩
  · exact hqueue.trans_lt (h.room j rest hpub f hf)
  · exact h.room j rest hpub g hg

/-- Handing the snapshot to one channel. -/
lemma consistent_send {rest : List ℕ} {stage : SendStage} (h : Consistent s)
    (hpub : s.publishing = some ⟨id :: rest, stage⟩) (hf : s.followers id = some f) :
    Consistent (s.send id rest f stage) := by
  have hpending := pending_of_publishing hpub
  have hnodup := List.nodup_cons.mp (hpending ▸ h.pending)
  have hmem : id ∈ s.pending := by simp [hpending]
  have hlive : f.pc ≠ .left := by
    obtain ⟨g, hg, hlive⟩ := (h.known id).mp (h.unserved id hmem)
    cases hf.symm.trans hg
    exact hlive
  have hfollows : Follows s.cur False f := by
    have := h.follows id f hf hlive
    simpa [hmem] using this
  have hpush (hroom : f.queue.length < subscriberBuffer) : Consistent
      { s.setFollower id (f.push s.cur) with publishing := some ⟨rest, .offer⟩ } := by
    refine h.setFollower hf rfl rfl rfl rfl ⟨hnodup.2, fun j hj => ?_⟩ (fun j hne hj => ?_) hlive
      hlive ?_ (fun j rest' hp => ?_) ?_
    · rw [hpending]
      exact List.mem_cons_of_mem _ hj
    · rw [hpending] at hj
      exact (List.mem_cons.mp hj).resolve_left hne
    · simpa [Follower.push] using hroom
    · cases hp
    · have hserved : (id ∉ rest) = True := eq_true hnodup.1
      change Follows s.cur (id ∉ rest) (f.push s.cur)
      rw [hserved]
      exact hfollows.push
  cases stage with
  | offer =>
      rw [send]
      split_ifs with hroom
      · exact hpush hroom
      · exact ⟨h.subs, h.known, h.ids, hpending ▸ h.pending, hpending ▸ h.unserved, h.capacity,
          fun j rest' hp => (by cases hp), hpending ▸ h.follows⟩
  | evict =>
      have hlength : f.evict.queue.length < subscriberBuffer := by
        have := h.capacity id f hf
        rw [Follower.evict, List.length_tail]
        simp only [subscriberBuffer] at this ⊢
        omega
      have hsame : (s.send id rest f .evict).pending = s.pending := hpending.symm
      refine h.setFollower hf rfl rfl rfl rfl ⟨hsame ▸ h.pending, fun j hj => hsame ▸ hj⟩
        (fun j _ hj => hsame ▸ hj) hlive hlive hlength.le (fun j rest' hp g hg => ?_) ?_
      · cases hp
        rcases of_setFollower hg with ⟨-, rfl⟩ | ⟨hne, -⟩
        · exact hlength
        · exact absurd rfl hne
      · have hserved : (id ∉ id :: rest) = False := by simp
        change Follows s.cur (id ∉ id :: rest) f.evict
        rw [hserved]
        exact hfollows.evict
  | retry =>
      rw [send, if_pos (h.room id rest hpub f hf)]
      exact hpush (h.room id rest hpub f hf)

/-- A publication that begins has every channel before it. -/
lemma Consistent.commit {order : List ℕ} (h : Consistent s) (horder : order.Perm s.subs)
    (next : EdgeStatus) :
    Consistent { s with
      cur := ⟨s.cur.commit + 1, next⟩
      publishing := some ⟨order, .offer⟩ } where
  subs := h.subs
  known := h.known
  ids := h.ids
  pending := horder.nodup_iff.mpr h.subs
  unserved j hj := horder.mem_iff.mp hj
  capacity := h.capacity
  room j rest hp := by cases hp
  follows j f hf hlive := by
    have hmem : j ∈ order := horder.mem_iff.mpr ((h.known j).mpr ⟨f, hf, hlive⟩)
    have hserved : (j ∉ order) = False := by simp [hmem]
    change Follows _ (j ∉ order) f
    rw [hserved]
    exact (h.follows j f hf hlive).commit next

lemma Consistent.unlock (h : Consistent s) (hpending : s.pending = []) :
    Consistent { s with publishing := none } where
  subs := h.subs
  known := h.known
  ids := h.ids
  pending := .nil
  unserved j hj := absurd hj List.not_mem_nil
  capacity := h.capacity
  room j rest hp := by cases hp
  follows j f hf hlive := by
    have hfollows := h.follows j f hf hlive
    rwa [hpending] at hfollows

lemma Consistent.subscribe (h : Consistent s) (hfree : s.publishing = none) :
    Consistent { s.setFollower s.nextID .fresh with
      subs := s.nextID :: s.subs
      nextID := s.nextID + 1 } where
  subs := by
    refine List.nodup_cons.mpr ⟨fun hmem => ?_, h.subs⟩
    obtain ⟨f, hf, -⟩ := (h.known s.nextID).mp hmem
    exact absurd (h.ids s.nextID f hf) (lt_irrefl _)
  known j := by
    by_cases hj : j = s.nextID
    · subst hj
      exact iff_of_true List.mem_cons_self ⟨_, followers_setFollower .., by decide⟩
    · rw [List.mem_cons, or_iff_right hj, h.known]
      change _ ↔ ∃ f, (s.setFollower s.nextID .fresh).followers j = some f ∧ _
      rw [followers_setFollower_of_ne s _ hj]
  ids j f hf := by
    rcases of_setFollower hf with ⟨rfl, -⟩ | ⟨-, hf⟩
    · exact Nat.lt_succ_self _
    · exact (h.ids j f hf).trans (Nat.lt_succ_self _)
  pending := h.pending
  unserved j hj := List.mem_cons_of_mem _ (h.unserved j hj)
  capacity j f hf := by
    rcases of_setFollower hf with ⟨-, rfl⟩ | ⟨-, hf⟩
    · exact Nat.zero_le _
    · exact h.capacity j f hf
  room j rest hp := absurd (hfree.symm.trans hp) (Option.some_ne_none _).symm
  follows j f hf hlive := by
    rcases of_setFollower hf with ⟨-, rfl⟩ | ⟨-, hf⟩
    · exact .fresh _
    · exact h.follows j f hf hlive

lemma Consistent.cancel (h : Consistent s) (hfree : s.publishing = none)
    (hf : s.followers id = some f) :
    Consistent { s.setFollower id { f with pc := .left } with subs := s.subs.erase id } where
  subs := h.subs.erase id
  known j := by
    by_cases hj : j = id
    · subst hj
      refine iff_of_false (h.subs.not_mem_erase) ?_
      rintro ⟨g, hg, hlive⟩
      rcases of_setFollower hg with ⟨-, rfl⟩ | ⟨hne, -⟩
      · exact hlive rfl
      · exact hne rfl
    · rw [List.mem_erase_of_ne hj, h.known]
      change _ ↔ ∃ g, (s.setFollower id { f with pc := .left }).followers j = some g ∧ _
      rw [followers_setFollower_of_ne s _ hj]
  ids j g hg := by
    rcases of_setFollower hg with ⟨rfl, -⟩ | ⟨-, hg⟩
    · exact h.ids j f hf
    · exact h.ids j g hg
  pending := h.pending
  unserved j hj := by
    have hnil : j ∈ s.pending := hj
    rw [pending_of_unlocked hfree] at hnil
    exact absurd hnil List.not_mem_nil
  capacity j g hg := by
    rcases of_setFollower hg with ⟨rfl, rfl⟩ | ⟨-, hg⟩
    · exact h.capacity j f hf
    · exact h.capacity j g hg
  room j rest hp := absurd (hfree.symm.trans hp) (Option.some_ne_none _).symm
  follows j g hg hlive := by
    rcases of_setFollower hg with ⟨-, rfl⟩ | ⟨-, hg⟩
    · exact absurd rfl hlive
    · exact h.follows j g hg hlive

/-- **What a step keeps**, whatever the consumers do. -/
lemma consistent_step {a : Action} (h : Consistent s) (hstep : s.step a = some t) :
    Consistent t := by
  cases a with
  | write w order =>
      rw [step] at hstep
      split_ifs at hstep with hg
      cases hw : s.cur.status.apply w with
      | none =>
          rw [hw] at hstep
          cases hstep
          exact h
      | some next =>
          rw [hw] at hstep
          cases hstep
          exact h.commit hg.2 next
  | publish =>
      rw [step] at hstep
      rcases hpub : s.publishing with _ | ⟨_ | ⟨id, rest⟩, stage⟩ <;> rw [hpub] at hstep
      · cases hstep
      · cases hstep
        exact h.unlock (pending_of_publishing hpub)
      · obtain ⟨f, hf, rfl⟩ := Option.map_eq_some_iff.mp hstep
        exact consistent_send h hpub hf
  | subscribe =>
      rw [step] at hstep
      split_ifs at hstep with hfree
      cases hstep
      exact h.subscribe hfree
  | get id =>
      obtain ⟨f, hf, hstep⟩ := Option.bind_eq_some_iff.mp hstep
      split_ifs at hstep with hg
      cases hstep
      have hlive : f.pc ≠ .left := by simp [hg.2]
      exact h.keep hf hlive (by simp [Follower.get]) le_rfl (h.follows id f hf hlive).get
  | receive id =>
      obtain ⟨f, hf, hstep⟩ := Option.bind_eq_some_iff.mp hstep
      split_ifs at hstep with hpc
      obtain ⟨st, hst, rfl⟩ := Option.map_eq_some_iff.mp hstep
      obtain ⟨rest, hq⟩ := List.head?_eq_some_iff.mp hst
      have hlive : f.pc ≠ .left := by simp [hpc]
      refine h.keep hf hlive hlive ?_ ((h.follows id f hf hlive).receive hpc hq)
      simp [Follower.receive]
  | quit id =>
      obtain ⟨f, hf, hstep⟩ := Option.bind_eq_some_iff.mp hstep
      split_ifs at hstep with hg
      cases hstep
      have hlive : f.pc ≠ .left := by rcases hg with hpc | hpc <;> simp [hpc]
      exact h.keep hf hlive (by simp) le_rfl
        ((h.follows id f hf hlive).leave (by decide) (by decide))
  | cancel id =>
      obtain ⟨f, hf, hstep⟩ := Option.bind_eq_some_iff.mp hstep
      split_ifs at hstep with hg
      cases hstep
      exact h.cancel hg.1 hf

/-- A consumer that has drained its channel while nothing is being published has emitted the
current snapshot last, in every run. -/
lemma Consistent.settled (h : Consistent s) (hf : s.followers id = some f)
    (hfree : s.publishing = none) (hpc : f.pc = .following) (hq : f.queue = []) :
    f.emitted.head? = some s.cur := by
  refine (h.follows id f hf (by simp [hpc])).settled ?_ hpc hq
  rw [pending_of_unlocked hfree]
  exact List.not_mem_nil

/-! ### What a timely consumer keeps -/

/-- What a consumer emitted is in order, and what is queued for it comes after that. -/
structure InOrder (f : Follower) : Prop where
  emitted : f.emitted.Pairwise fun later earlier => earlier.commit ≤ later.commit
  behind : f.pc = .following → ∀ e ∈ f.emitted.head?, ∀ st ∈ f.queue, e.commit ≤ st.commit

/-- Every consumer is in order. -/
def Ordered (s : StatusStore) : Prop := ∀ id f, s.followers id = some f → InOrder f

lemma Ordered.setFollower (h : Ordered s) (hf' : InOrder f') :
    Ordered (s.setFollower id f') := by
  intro j g hg
  rcases of_setFollower hg with ⟨-, rfl⟩ | ⟨-, hg⟩
  · exact hf'
  · exact h j g hg

/-- What is handed to a channel is the newest snapshot there is. -/
lemma InOrder.push {cur : Stamped} {served : Prop} (h : InOrder f) (hF : Follows cur served f) :
    InOrder (f.push cur) where
  emitted := h.emitted
  behind hpc e he st hst := by
    rcases List.mem_append.mp hst with hst | hst
    · exact h.behind hpc e he st hst
    · rw [List.mem_singleton.mp hst]
      exact hF.emitted e (List.mem_of_mem_head? he)

lemma InOrder.evict (h : InOrder f) : InOrder f.evict where
  emitted := h.emitted
  behind hpc e he st hst := h.behind hpc e he st (List.mem_of_mem_tail hst)

/-- With no more than one snapshot in its channel, a consumer finds nothing older there than what
`Get` answers. -/
lemma InOrder.get {cur : Stamped} (hF : Follows cur True f) (hpc : f.pc = .subscribed)
    (hlength : f.queue.length ≤ 1) : InOrder (f.get cur) where
  emitted := by
    rw [Follower.get, hF.silent hpc]
    exact List.pairwise_singleton _ _
  behind _ e he st hst := by
    cases he
    cases hq : f.queue with
    | nil =>
        rw [Follower.get, hq] at hst
        exact absurd hst List.not_mem_nil
    | cons x rest =>
        rw [hq, List.length_cons] at hlength
        have hrest : rest = [] := List.length_eq_zero_iff.mp (by omega)
        have hx : x = cur := hF.last trivial x (by rw [hq, hrest]; rfl)
        rw [Follower.get, hq, hrest, List.mem_singleton] at hst
        rw [hst, hx]

/-- The oldest snapshot of a channel comes before the rest of it. -/
lemma InOrder.receive {cur st : Stamped} {served : Prop} {rest : List Stamped} (h : InOrder f)
    (hF : Follows cur served f) (hpc : f.pc = .following) (hq : f.queue = st :: rest) :
    InOrder (f.receive st) where
  emitted := by
    refine List.pairwise_cons.mpr ⟨fun e he => ?_, h.emitted⟩
    cases hemitted : f.emitted with
    | nil =>
        rw [hemitted] at he
        exact absurd he List.not_mem_nil
    | cons newest older =>
        have hnewest := h.behind hpc newest (by simp [hemitted]) st (by simp [hq])
        have hordered := hemitted ▸ h.emitted
        rw [hemitted] at he
        rcases List.mem_cons.mp he with rfl | he
        · exact hnewest
        · exact ((List.pairwise_cons.mp hordered).1 e he).trans hnewest
  behind _ e he x hx := by
    cases he
    rw [Follower.receive, hq, List.tail_cons] at hx
    have hordered := hq ▸ hF.ordered
    exact ((List.pairwise_cons.mp hordered).1 x hx).le

/-- Handing the snapshot to one channel. -/
lemma ordered_send {rest : List ℕ} (stage : SendStage) (h : Ordered s) (hC : Consistent s)
    (hf : s.followers id = some f) (hlive : f.pc ≠ .left) :
    Ordered (s.send id rest f stage) := by
  have hin := h id f hf
  have hpush : Ordered (s.setFollower id (f.push s.cur)) :=
    h.setFollower (hin.push (hC.follows id f hf hlive))
  cases stage with
  | offer =>
      rw [send]
      split_ifs
      · exact hpush
      · exact h
  | evict => exact h.setFollower hin.evict
  | retry =>
      rw [send]
      split_ifs
      · exact hpush
      · exact h

lemma ordered_step {a : Action} (h : Ordered s) (hC : Consistent s)
    (hguard : readsInTime s a = true) (hstep : s.step a = some t) : Ordered t := by
  cases a with
  | write w order =>
      rw [step] at hstep
      split_ifs at hstep
      cases hw : s.cur.status.apply w <;> rw [hw] at hstep <;> cases hstep <;> exact h
  | publish =>
      rw [step] at hstep
      rcases hpub : s.publishing with _ | ⟨_ | ⟨id, rest⟩, stage⟩ <;> rw [hpub] at hstep
      · cases hstep
      · cases hstep
        exact h
      · obtain ⟨f, hf, rfl⟩ := Option.map_eq_some_iff.mp hstep
        have hmem : id ∈ s.pending := by simp [pending_of_publishing hpub]
        obtain ⟨g, hg, hlive⟩ := (hC.known id).mp (hC.unserved id hmem)
        cases hf.symm.trans hg
        exact ordered_send stage h hC hf hlive
  | subscribe =>
      rw [step] at hstep
      split_ifs at hstep
      cases hstep
      exact h.setFollower ⟨.nil, fun hpc => absurd hpc (by decide)⟩
  | get id =>
      obtain ⟨f, hf, hstep⟩ := Option.bind_eq_some_iff.mp hstep
      split_ifs at hstep with hg
      cases hstep
      have hfollows := hC.follows id f hf (by simp [hg.2])
      have hserved : (id ∉ s.pending) = True := by simp [pending_of_unlocked hg.1]
      rw [hserved] at hfollows
      have hlength : f.queue.length ≤ 1 := by
        rw [readsInTime, hf] at hguard
        exact of_decide_eq_true hguard
      exact h.setFollower (.get hfollows hg.2 hlength)
  | receive id =>
      obtain ⟨f, hf, hstep⟩ := Option.bind_eq_some_iff.mp hstep
      split_ifs at hstep with hpc
      obtain ⟨st, hst, rfl⟩ := Option.map_eq_some_iff.mp hstep
      obtain ⟨rest, hq⟩ := List.head?_eq_some_iff.mp hst
      exact h.setFollower ((h id f hf).receive (hC.follows id f hf (by simp [hpc])) hpc hq)
  | quit id =>
      obtain ⟨f, hf, hstep⟩ := Option.bind_eq_some_iff.mp hstep
      split_ifs at hstep
      cases hstep
      exact h.setFollower ⟨(h id f hf).emitted, fun hpc => absurd hpc (by simp)⟩
  | cancel id =>
      obtain ⟨f, hf, hstep⟩ := Option.bind_eq_some_iff.mp hstep
      split_ifs at hstep
      cases hstep
      exact h.setFollower ⟨(h id f hf).emitted, fun hpc => absurd hpc (by simp)⟩

/-- **Followers do not go back**: in every run of commits, publications and consumers in which the
initial `Get` of a consumer finds no more than one snapshot in its channel, what each consumer has
emitted is in the order of the commits, and one that has drained its channel has emitted the
current snapshot last. -/
theorem followers_in_order {as : List Action}
    (hrun : Run (Guarded (fun s a => readsInTime s a = true) step) newStatusStore as s) :
    Law s := by
  have hinit : Consistent newStatusStore ∧ Ordered newStatusStore :=
    ⟨consistent_init, fun id f hf => by cases hf⟩
  obtain ⟨hC, hO⟩ := hrun.invariant (I := fun s => Consistent s ∧ Ordered s)
    (fun _ _ _ h hstep => ⟨consistent_step h.1 hstep.2, ordered_step h.2 h.1 hstep.1 hstep.2⟩)
    hinit
  exact fun id f hf => ⟨(hO id f hf).emitted, hC.settled hf⟩

/-- A consumer that reads its two snapshots in time. -/
theorem followers_in_order_two : ∃ s,
    Run (Guarded (fun s a => readsInTime s a = true) step) newStatusStore
      [.subscribe, .write .starting [0], .publish, .publish, .get 0, .receive 0,
        .write .connecting [0], .publish, .publish, .receive 0] s ∧
      (s.followers 0).map (fun f => f.emitted.map (·.commit)) = some [2, 1, 1] ∧ Law s := by
  obtain ⟨s, hrun, hs⟩ := exists_guarded_run_of_exec (fun s a => readsInTime s a = true) step
    newStatusStore
    [.subscribe, .write .starting [0], .publish, .publish, .get 0, .receive 0,
      .write .connecting [0], .publish, .publish, .receive 0]
    (fun s => (s.followers 0).map (fun f => f.emitted.map (·.commit)) = some [2, 1, 1])
    (by decide +kernel)
  exact ⟨s, hrun, of_decide_eq_true hs, followers_in_order hrun⟩

/-- **A follower that goes back**: with two commits between subscribing and `Get`, the consumer
emits `connecting`, the current snapshot, and after it `starting`, which it had been sent
before. -/
theorem follower_goes_back : ∃ s,
    Run (Steps step) newStatusStore
      [.subscribe, .write .starting [0], .publish, .publish, .write .connecting [0], .publish,
        .publish, .get 0, .receive 0] s ∧
      (s.followers 0).map (fun f => f.emitted.map fun st => (st.commit, st.status.state)) =
        some [(1, .starting), (2, .connecting)] ∧ ¬Law s := by
  obtain ⟨s, hrun, hs⟩ := exists_run_of_exec step newStatusStore
    [.subscribe, .write .starting [0], .publish, .publish, .write .connecting [0], .publish,
      .publish, .get 0, .receive 0]
    (fun s => (s.followers 0).map (fun f => f.emitted.map fun st => (st.commit, st.status.state)) =
      some [(1, .starting), (2, .connecting)]) (by decide +kernel)
  have hs := of_decide_eq_true hs
  refine ⟨s, hrun, hs, fun h => ?_⟩
  obtain ⟨f, hf, hemitted⟩ := Option.map_eq_some_iff.mp hs
  have horder : (f.emitted.map fun st => (st.commit, st.status.state)).Pairwise
      fun later earlier => earlier.1 ≤ later.1 :=
    List.pairwise_map.mpr (h 0 f hf).1
  rw [hemitted] at horder
  exact absurd ((List.pairwise_cons.mp horder).1 _ List.mem_cons_self) (by decide)

end StatusStore

end LocalCast.Edge
