import LocalCast.Foundations.JsNumber
import LocalCast.Foundations.Runs

/-!
The migrations of the database: `migrate` of `db/index.ts`, over any starts of the server.

* `Migration`, `loadMigrations`: the files of the directory, in the order of their versions.
* `Store`, `Start`: the database, and a start that is going through its files.
* `step`: a start opens the database, takes one file after the other, or is killed. Starts may
  overlap.
* `Recorded`: the invariant; the database is what the recorded migrations made of the empty one.
* `migrations_once`: in every run each version is applied once at most, and a start that has gone
  through its files finds all of them applied.

The rows that `seed` adds are left out.
-/

namespace LocalCast.Db

open JsString JsNumber Runs

variable {σ : Type*}

/-! ### Files -/

/-- A file of the directory; its statements change the tables, or fail. -/
structure MigrationFile (σ : Type*) where
  name : JsString
  sql : σ → Option σ

structure Migration (σ : Type*) where
  version : ℕ
  name : JsString
  sql : σ → Option σ

/-- `/^(\d+)/`, as a number. -/
def versionOf (name : JsString) : Option ℕ :=
  let digits := name.takeWhile isDigit
  if digits = [] then none else number digits

/-- `loadMigrations`: none where the name of a file does not start with a number. -/
def loadMigrations (files : List (MigrationFile σ)) : Option (List (Migration σ)) :=
  ((files.filter fun f => js ".sql" <:+ f.name).mapM fun f =>
    (versionOf f.name).map fun version => ⟨version, f.name, f.sql⟩).map fun ms =>
      ms.insertionSort fun a b => a.version ≤ b.version

/-! ### Starts -/

/-- The tables, and the rows of `schema_migrations`. -/
structure Store (σ : Type*) where
  tables : σ
  rows : List (ℕ × JsString)

/-- A start: the versions it has read as applied, its files, those it has gone through, and those
that it has not. -/
structure Start (σ : Type*) where
  applied : List ℕ
  files : List (Migration σ)
  done : List (Migration σ)
  left : List (Migration σ)

/-- The database, the starts that are going through their files, and every migration that was
committed, in that order. -/
structure Migrations (σ : Type*) where
  store : Store σ
  starts : ℕ → Option (Start σ)
  committed : List (Migration σ)

inductive MigrationStep (σ : Type*) where
  /-- A start opens the database and reads the applied versions and its directory. -/
  | openStore (id : ℕ) (files : List (MigrationFile σ))
  /-- The next file of a start. -/
  | next (id : ℕ)
  /-- A start is killed. -/
  | kill (id : ℕ)

/-- One transaction: the statements and the record, or neither. A version is recorded once. -/
def Store.transaction (db : Store σ) (m : Migration σ) : Option (Store σ) :=
  (m.sql db.tables).bind fun tables =>
    if m.version ∈ db.rows.map Prod.fst then none
    else some ⟨tables, db.rows ++ [(m.version, m.name)]⟩

namespace Migrations

variable (s : Migrations σ)

def init (tables : σ) : Migrations σ := ⟨⟨tables, []⟩, fun _ => none, []⟩

def withStart (id : ℕ) (st : Option (Start σ)) : Migrations σ :=
  { s with starts := Function.update s.starts id st }

/-- A start takes a file: a version that it has read as applied is skipped, and a transaction that
fails ends the start. -/
def take (id : ℕ) (st : Start σ) (m : Migration σ) (rest : List (Migration σ)) : Migrations σ :=
  let st' : Start σ := { st with done := st.done ++ [m], left := rest }
  if m.version ∈ st.applied then s.withStart id (some st')
  else
    match s.store.transaction m with
    | none => s.withStart id none
    | some db => { s.withStart id (some st') with store := db, committed := s.committed ++ [m] }

end Migrations

def migrationStep (s : Migrations σ) : MigrationStep σ → Option (Migrations σ)
  | .openStore id files =>
      (loadMigrations files).map fun ms =>
        s.withStart id (some ⟨s.store.rows.map Prod.fst, ms, [], ms⟩)
  | .next id =>
      (s.starts id).bind fun st =>
        match st.left with
        | [] => none
        | m :: rest => some (s.take id st m rest)
  | .kill id => some (s.withStart id none)

/-! ### What is recorded -/

/-- The tables that migrations make of others, one after the other. -/
def replay (tables : σ) (ms : List (Migration σ)) : Option σ :=
  ms.foldlM (fun tables m => m.sql tables) tables

/-- What a start has read or gone through is recorded, and the files that are left are the others. -/
structure InOrder (s : Migrations σ) (st : Start σ) : Prop where
  applied : ∀ v ∈ st.applied, v ∈ s.store.rows.map Prod.fst
  done : ∀ m ∈ st.done, m.version ∈ s.store.rows.map Prod.fst
  files : st.done ++ st.left = st.files

/-- The record is that of the migrations that were committed, each version once, and the tables
are what these made of the first ones. -/
structure Recorded (tables : σ) (s : Migrations σ) : Prop where
  rows : s.store.rows = s.committed.map fun m => (m.version, m.name)
  nodup : (s.committed.map Migration.version).Nodup
  tables : replay tables s.committed = some s.store.tables
  starts : ∀ id st, s.starts id = some st → InOrder s st

variable {s t : Migrations σ} {tables : σ}

lemma recorded_init (tables : σ) : Recorded tables (Migrations.init tables) where
  rows := rfl
  nodup := List.nodup_nil
  tables := rfl
  starts id st h := by cases h

lemma starts_withStart (s : Migrations σ) (id : ℕ) (o : Option (Start σ)) (id' : ℕ) :
    (s.withStart id o).starts id' = if id' = id then o else s.starts id' :=
  Function.update_apply _ _ _ _

/-- A start that changes nothing but itself. -/
lemma Recorded.withStart (h : Recorded tables s) (id : ℕ) {o : Option (Start σ)}
    (ho : ∀ st, o = some st → InOrder s st) : Recorded tables (s.withStart id o) where
  rows := h.rows
  nodup := h.nodup
  tables := h.tables
  starts id' st hst := by
    rw [starts_withStart] at hst
    have hkept : InOrder s st := by
      split_ifs at hst with hid
      · exact ho st hst
      · exact h.starts id' st hst
    exact ⟨hkept.applied, hkept.done, hkept.files⟩

lemma versions_eq (h : Recorded tables s) :
    s.store.rows.map Prod.fst = s.committed.map Migration.version := by
  rw [h.rows, List.map_map]
  rfl

/-- What a transaction leaves. -/
lemma transaction_eq_some {db db' : Store σ} {m : Migration σ} (h : db.transaction m = some db') :
    m.sql db.tables = some db'.tables ∧ m.version ∉ db.rows.map Prod.fst ∧
      db'.rows = db.rows ++ [(m.version, m.name)] := by
  obtain ⟨tables, hsql, hguard⟩ := Option.bind_eq_some_iff.mp h
  split_ifs at hguard with hnew
  cases hguard
  exact ⟨hsql, hnew, rfl⟩

/-- A start that has gone through one more file, whose version is recorded. -/
lemma InOrder.next {st : Start σ} (h : InOrder s st) {m : Migration σ} {rest : List (Migration σ)}
    (hleft : st.left = m :: rest) (hmono : ∀ v ∈ s.store.rows.map Prod.fst,
      v ∈ t.store.rows.map Prod.fst) (hm : m.version ∈ t.store.rows.map Prod.fst) :
    InOrder t { st with done := st.done ++ [m], left := rest } where
  applied v hv := hmono v (h.applied v hv)
  done n hn := by
    rcases List.mem_append.mp hn with hn | hn
    · exact hmono _ (h.done n hn)
    · rw [List.mem_singleton.mp hn]
      exact hm
  files := by
    rw [← h.files, hleft]
    simp

/-- **One file keeps the record true.** -/
lemma Recorded.take (h : Recorded tables s) {id : ℕ} {st : Start σ} (hst : s.starts id = some st)
    {m : Migration σ} {rest : List (Migration σ)} (hleft : st.left = m :: rest) :
    Recorded tables (s.take id st m rest) := by
  have hstart := h.starts id st hst
  rw [Migrations.take]
  split_ifs with hskip
  · refine h.withStart id fun st' hst' => ?_
    cases hst'
    exact hstart.next hleft (fun _ hv => hv) (hstart.applied _ hskip)
  · cases hrun : s.store.transaction m with
    | none => exact h.withStart id (by simp)
    | some db =>
        obtain ⟨hsql, hnew, hrows⟩ := transaction_eq_some hrun
        have hmono : ∀ v ∈ s.store.rows.map Prod.fst, v ∈ db.rows.map Prod.fst := by
          intro v hv
          rw [hrows, List.map_append, List.mem_append]
          exact .inl hv
        have hrecorded : m.version ∈ db.rows.map Prod.fst := by
          rw [hrows, List.map_append, List.mem_append]
          exact .inr List.mem_cons_self
        refine ⟨?_, ?_, ?_, ?_⟩
        · simp only [hrows, h.rows, List.map_append, List.map_cons, List.map_nil]
        · rw [versions_eq h] at hnew
          simp only [List.map_append, List.map_cons, List.map_nil]
          rw [List.nodup_append_comm, List.singleton_append, List.nodup_cons]
          exact ⟨hnew, h.nodup⟩
        · have hreplay := h.tables
          rw [replay] at hreplay ⊢
          simp only [List.foldlM_append, hreplay, Option.bind_eq_bind, Option.bind_some,
            List.foldlM_cons, List.foldlM_nil, hsql]
          rfl
        · intro id' st' hst'
          have hkept : InOrder { s with store := db } st' := by
            rw [show _ = _ from starts_withStart s id _ id'] at hst'
            split_ifs at hst' with hid
            · cases hst'
              exact hstart.next hleft hmono hrecorded
            · have hother := h.starts id' st' hst'
              exact ⟨fun v hv => hmono v (hother.applied v hv),
                fun n hn => hmono _ (hother.done n hn), hother.files⟩
          exact ⟨hkept.applied, hkept.done, hkept.files⟩

lemma recorded_step {a : MigrationStep σ} (h : Recorded tables s)
    (hstep : migrationStep s a = some t) : Recorded tables t := by
  cases a with
  | openStore id files =>
      obtain ⟨ms, -, rfl⟩ := Option.map_eq_some_iff.mp hstep
      refine h.withStart id fun st hst => ?_
      cases hst
      exact ⟨fun _ hv => hv, by simp, rfl⟩
  | next id =>
      obtain ⟨st, hst, hnext⟩ := Option.bind_eq_some_iff.mp hstep
      cases hleft : st.left with
      | nil => simp [hleft] at hnext
      | cons m rest =>
          simp only [hleft, Option.some.injEq] at hnext
          subst hnext
          exact h.take hst hleft
  | kill id =>
      cases hstep
      exact h.withStart id (by simp)

/-- **Each version is applied once**, in whatever way starts overlap, fail and are killed: the
tables are what the committed migrations made of the first ones, in the order they were committed;
no two of them have the same version, and the record names exactly these; and a start that has
gone through its files finds every one of them recorded. -/
theorem migrations_once {as : List (MigrationStep σ)}
    (hrun : Run (Steps migrationStep) (Migrations.init tables) as s) :
    replay tables s.committed = some s.store.tables ∧
      (s.committed.map Migration.version).Nodup ∧
      (s.store.rows = s.committed.map fun m => (m.version, m.name)) ∧
      ∀ id st, s.starts id = some st → st.left = [] →
        ∀ m ∈ st.files, m.version ∈ s.store.rows.map Prod.fst := by
  have h : Recorded tables s :=
    hrun.invariant (fun _ _ _ h hstep => recorded_step h hstep) (recorded_init tables)
  refine ⟨h.tables, h.nodup, h.rows, fun id st hst hleft m hm => ?_⟩
  have hstart := h.starts id st hst
  rw [← hstart.files, hleft, List.append_nil] at hm
  exact hstart.done m hm

/-- Two starts read the same database before either has applied anything; the second one fails. -/
def overlapping : List (MigrationStep ℕ) :=
  [.openStore 0 [⟨js "001_initial.sql", fun n => some (n + 1)⟩],
    .openStore 1 [⟨js "001_initial.sql", fun n => some (n + 1)⟩], .next 0, .next 1]

theorem migrations_once_overlapping : ∃ s : Migrations ℕ,
    Run (Steps migrationStep) (Migrations.init 0) overlapping s ∧ s.store.tables = 1 ∧
      replay 0 s.committed = some s.store.tables := by
  obtain ⟨s, hrun, hs⟩ := exists_run_of_exec migrationStep (Migrations.init 0) overlapping
    (fun s => s.store.tables = 1) (by decide)
  exact ⟨s, hrun, by simpa using hs, (migrations_once hrun).1⟩

end LocalCast.Db
