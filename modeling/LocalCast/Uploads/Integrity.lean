import LocalCast.Uploads.Authority
import LocalCast.Uploads.Survival

/-!
What an upload session publishes, where its appends carry stretches of one source file.

* `carriesSource`: every chunk that is written is the stretch of the source at its position,
  writes are whole, and a session declares the length of its source.
* `Sourced`: the file of a session is a prefix of its source, at least as long as its row
  counts; what is about to land, and what landed, is the source.
* `uploads_intact`: along every run that also reserves no name in the temp directory, counts
  are covered by source bytes, a session publishes once and publishes its source, and no file
  outside the temp directory is overwritten.
* `temp_directory_publishes_twice`: where a library folder contains the temp directory, a
  session can publish another session's file as its own, after its own.
-/

namespace Disk

/-- Writing the stretch of a source at its place keeps a prefix of the source one. -/
lemma writeAt_prefix {bytes data source : List UInt8} {offset : ℕ} (hb : bytes <+: source)
    (ho : offset ≤ bytes.length) (hd : data <+: source.drop offset) :
    writeAt bytes offset data <+: source := by
  have hlen := hd.length_le
  rw [List.length_drop] at hlen
  have hblen := hb.length_le
  have hbytes : bytes = source.take bytes.length := List.prefix_iff_eq_take.mp hb
  have hdata : data = (source.drop offset).take data.length := List.prefix_iff_eq_take.mp hd
  have hhead : bytes.take offset = source.take offset := by
    rw [hbytes, List.take_take, min_eq_left ho]
  have htail : bytes.drop (offset + data.length) =
      (source.drop (offset + data.length)).take (bytes.length - (offset + data.length)) := by
    rw [← List.drop_take, ← hbytes]
  have hmid : source.take offset ++ data = source.take (offset + data.length) := by
    rw [List.take_add, ← hdata]
  have hwhole : writeAt bytes offset data = source.take
      (offset + data.length + (bytes.length - (offset + data.length))) := by
    rw [writeAt, Nat.sub_eq_zero_of_le ho, List.replicate_zero, List.append_nil, hhead, hmid,
      htail, ← List.take_add]
  exact hwhole ▸ List.take_prefix _ _

end Disk

namespace LocalCast.Uploads

open JsString Contract Db Auth Library Runs UploadState

/-- Every chunk that is written is the stretch of the source at its position, and writes are
whole; a session declares the length of its source. -/
def carriesSource (source : JsString → List UInt8) (s : UploadState) (a : Action) : Bool :=
  writesWhole a &&
    match a with
    | .opened i id _ =>
        match s.calls i with
        | some (.opening input _) => input.totalBytes = (source id).length
        | _ => true
    | .chunk i data _ _ =>
        match s.calls i with
        | some (.writing row _ received overflow _) => !writes row received overflow data ||
            data.isPrefixOf ((source row.id).drop received)
        | _ => true
    | _ => true

/-- Files hold what their sessions carry. -/
structure Sourced (source : JsString → List UInt8) (owner : ℕ → Option JsString)
    (s : UploadState) : Prop where
  stretch : ∀ x id, owner x = some id → s.disk.bytes x <+: source id
  total : ∀ id row, s.uploads.get id = some row → row.total_bytes = (source id).length
  new : ∀ i input relPath id, s.calls i = some (.inserting input relPath id) →
    input.totalBytes = (source id).length
  count : ∀ id row x, s.uploads.get id = some row → owner x = some id →
    row.received_bytes ≤ (s.disk.bytes x).length
  full : ∀ i c row x, s.calls i = some c → c.landing = some row → owner x = some row.id →
    s.disk.bytes x = source row.id
  published : ∀ f ∈ s.published, ∃ id, owner f.inode = some id ∧ f.bytes = source id ∧
    s.disk.bytes f.inode = source id
  recording : ∀ i row finalPath, s.calls i = some (.recording row finalPath) →
    ∃ f ∈ s.published, f.path = finalPath ∧ owner f.inode = some row.id
  complete : ∀ id row, s.uploads.get id = some row → row.status = .complete →
    ∃ f ∈ s.published, owner f.inode = some id ∧ ∃ rel, row.rel_path = finalRel rel f.path

lemma sourced_init (source : JsString → List UInt8) (store : AuthStore) (disk : Disk JsString) :
    Sourced source (fun _ => none) (init store disk) := by
  constructor <;> simp [init]

section Sourced

variable {cfg : UploadConfig} {source : JsString → List UInt8} {s t : UploadState} {a : Action}
  {owner owner' : ℕ → Option JsString}

/-- The owner a session had, it keeps; and a session that was there gets no other file. -/
lemma owner_iff (ho : OwnerStep cfg s t owner owner') {x : ℕ} {id : JsString}
    (hid : id ∈ s.usedIds) : owner' x = some id ↔ owner x = some id := by
  constructor
  · intro hx
    rcases ho.back x id hx with hx0 | ⟨-, hfresh, -⟩
    · exact hx0
    · exact absurd hid hfresh
  · exact ho.mono x id

lemma stretch_step (hs : Owned cfg owner s) (hc : Counted owner s) (hf : Sourced source owner s)
    (hg : carriesSource source s a = true) (h : step cfg s a = some t)
    (ho : OwnerStep cfg s t owner owner') {x : ℕ} {id : JsString} (hx : owner' x = some id) :
    t.disk.bytes x <+: source id := by
  rcases ho.back x id hx with hx0 | ⟨-, -, -, -, hnil⟩
  · rcases bytes_step hs h hx0 with hsame | ⟨i, data, written, fails, row, received, overflow, ha,
      hcall, hwrites, hbytes⟩
    · exact hsame ▸ hf.stretch x id hx0
    · obtain rfl := Option.some.inj ((hs.handle i row x _ _ _ hcall).symm.trans hx0)
      subst ha
      simp only [carriesSource, hcall, hwrites, Bool.not_true, Bool.false_or,
        Bool.and_eq_true, List.isPrefixOf_iff_prefix] at hg
      rw [hbytes]
      exact Disk.writeAt_prefix (hf.stretch x _ hx0) (hc.handle i row x _ _ _ hcall)
        ((List.take_prefix _ _).trans hg.2)
  · rw [hnil]
    exact List.nil_prefix

/-- A file that holds its whole source is not changed any more. -/
lemma full_kept (hs : Owned cfg owner s) (hc : Counted owner s) (hf : Sourced source owner s)
    (hg : carriesSource source s a = true) (h : step cfg s a = some t)
    (ho : OwnerStep cfg s t owner owner') {x : ℕ} {id : JsString} (hx : owner x = some id)
    (hfull : s.disk.bytes x = source id) : t.disk.bytes x = source id := by
  have hpre := stretch_step hs hc hf hg h ho (ho.mono x id hx)
  have hlen := length_step hs h hx
  exact hpre.eq_of_length_le (hfull ▸ hlen)

lemma total_step (hf : Sourced source owner s) (h : step cfg s a = some t) {id : JsString}
    {row' : UploadRow} (hrow' : t.uploads.get id = some row') :
    row'.total_bytes = (source id).length := by
  cases row_step h hrow' with
  | kept hrow => exact hf.total id _ hrow
  | inserted _ hcall hr' => exact hr' ▸ hf.new _ _ _ id hcall
  | persisted _ _ _ _ hrow hr' | aborted _ _ _ hrow hr' | swept hrow _ hr'
  | recorded _ _ _ hrow hr' =>
      have htotal := hf.total id _ hrow
      rwa [hr']

lemma count_step (hs : Owned cfg owner s) (hc : Counted owner s) (hf : Sourced source owner s)
    (hg : carriesSource source s a = true) (h : step cfg s a = some t)
    (ho : OwnerStep cfg s t owner owner') {id : JsString} {row' : UploadRow} {x : ℕ}
    (hrow' : t.uploads.get id = some row') (hx : owner' x = some id) :
    row'.received_bytes ≤ (t.disk.bytes x).length := by
  have hold {r : UploadRow} (hrow : s.uploads.get id = some r) : owner x = some id ∧
      r.received_bytes ≤ (t.disk.bytes x).length := by
    have hx0 := (owner_iff ho (hs.ids.known id _ hrow)).mp hx
    exact ⟨hx0, (hf.count id r x hrow hx0).trans (length_step hs h hx0)⟩
  cases row_step h hrow' with
  | kept hrow => exact (hold hrow).2
  | inserted _ _ hr' =>
      rw [hr']
      exact Nat.zero_le _
  | @persisted i broken now row r inode received overflow threw ha hcall hne hid hrow hr' =>
      have hx0 := (hold hrow).1
      obtain rfl := hs.inj x inode id hx0 (hid ▸ hs.handle i row inode _ _ _ hcall)
      rw [hr']
      exact (hc.handle i row x _ _ _ hcall).trans (length_step hs h hx0)
  | aborted _ _ _ hrow hr' | swept hrow _ hr' =>
      have hcount := (hold hrow).2
      rwa [hr']
  | @recorded i now row r finalPath ha hcall hid hrow hr' =>
      have hx0 := (hold hrow).1
      obtain ⟨f, hfp, -, hown⟩ := hf.recording i row finalPath hcall
      obtain ⟨id', hown', -, hbytes⟩ := hf.published f hfp
      obtain rfl := Option.some.inj (hown.symm.trans hown')
      obtain rfl := hs.inj x f.inode id hx0 (hid ▸ hown)
      have hfull := full_kept hs hc hf hg h ho hown hbytes
      rw [hr', hfull, ← hid]
      exact (hf.total id r hrow).le

lemma full_step (hs : Owned cfg owner s) (hc : Counted owner s) (hf : Sourced source owner s)
    (hg : carriesSource source s a = true) (h : step cfg s a = some t)
    (ho : OwnerStep cfg s t owner owner') {i : ℕ} {c : Call} {row : UploadRow} {x : ℕ}
    (hcall : t.calls i = some c) (hc' : c.landing = some row) (hx : owner' x = some row.id) :
    t.disk.bytes x = source row.id := by
  have hold {c0 : Call} (hcall0 : s.calls i = some c0) (hc0 : c0.landing = some row)
      (hrow0 : c0.row = some row) : t.disk.bytes x = source row.id := by
    have hx0 := (owner_iff ho (hs.held i c0 row hcall0 hrow0).1).mp hx
    exact full_kept hs hc hf hg h ho hx0 (hf.full i c0 row x hcall0 hc0 hx0)
  cases call_step h hcall with
  | kept hcall0 =>
      have hrow0 : c.row = some row := by cases c <;> simp_all [Call.landing, Call.row]
      exact hold hcall0 hc' hrow0
  | creating | opening | inserting | appending | opened | stayed | wrote | removing | aborting
  | sweeping | swept | recording | cleaning => cases hc'
  | resolving hrow hfull =>
      -- the row counts the whole source, and the file covers the count
      obtain rfl := Option.some.inj hc'
      have hpre := stretch_step hs hc hf hg h ho hx
      have htotal := total_step hf h hrow
      have hcount := count_step hs hc hf hg h ho hrow hx
      exact hpre.eq_of_length_le (htotal ▸ hfull.trans hcount)
  | making hcall0 | reserving hcall0 | nextName hcall0 | took hcall0 =>
      obtain rfl := Option.some.inj hc'
      exact hold hcall0 rfl rfl

/-- **Files keep holding what their sessions carry.** -/
theorem sourced_step (hs : Owned cfg owner s) (hc : Counted owner s) (hf : Sourced source owner s)
    (hg : carriesSource source s a = true) (h : step cfg s a = some t)
    (ho : OwnerStep cfg s t owner owner') : Sourced source owner' t := by
  refine ⟨fun x id hx => stretch_step hs hc hf hg h ho hx, fun id row hrow => total_step hf h hrow,
    ?new, fun id row x hrow hx => count_step hs hc hf hg h ho hrow hx,
    fun i c row x hcall hc' hx => full_step hs hc hf hg h ho hcall hc' hx,
    ?published, ?recording, ?complete⟩
  case new =>
    intro i input relPath id hcall
    cases call_step h hcall with
    | kept hcall0 => exact hf.new i input relPath id hcall0
    | inserting ha hcall0 =>
        subst ha
        simp only [carriesSource, hcall0, Bool.and_eq_true, decide_eq_true_eq] at hg
        exact hg.2
  case published =>
    intro f hfp
    rcases published_step h hfp with hold | ⟨i, row, hcall, -, hname, hname', hcontent⟩
    · obtain ⟨id, hown, hbytes, hfull⟩ := hf.published f hold
      exact ⟨id, ho.mono _ _ hown, hbytes, full_kept hs hc hf hg h ho hown hfull⟩
    · obtain ⟨hid, htemp⟩ := hs.held i _ row hcall rfl
      have hown := hs.own row.id f.inode hid (htemp ▸ hname)
      have hfull := full_kept hs hc hf hg h ho hown (hf.full i _ row f.inode hcall rfl hown)
      rw [Disk.content, hname', Option.map_some, Option.some_inj] at hcontent
      exact ⟨row.id, ho.mono _ _ hown, hcontent ▸ hfull, hfull⟩
  case recording =>
    intro i row finalPath hcall
    cases call_step h hcall with
    | kept hcall0 =>
        obtain ⟨f, hfp, hpath, hown⟩ := hf.recording i row finalPath hcall0
        exact ⟨f, published_mono h hfp, hpath, ho.mono _ _ hown⟩
    | @recording _ _ inode ha hcall0 hname hpub =>
        obtain ⟨hid, htemp⟩ := hs.held i _ row hcall0 rfl
        have hown := hs.own row.id inode hid (htemp ▸ hname)
        exact ⟨⟨finalPath, inode, s.disk.bytes inode⟩, hpub ▸ List.mem_cons_self, rfl,
          ho.mono _ _ hown⟩
  case complete =>
    intro id row' hrow' hcomplete
    have hold {r : UploadRow} (hrow : s.uploads.get id = some r) (hr : r.status = .complete) :
        ∃ f ∈ t.published, owner' f.inode = some id ∧ ∃ rel, r.rel_path = finalRel rel f.path := by
      obtain ⟨f, hfp, hown, hrel⟩ := hf.complete id r hrow hr
      exact ⟨f, published_mono h hfp, ho.mono _ _ hown, hrel⟩
    cases row_step h hrow' with
    | kept hrow => exact hold hrow hcomplete
    | inserted _ _ hr' => simp [hr', newRow] at hcomplete
    | persisted _ _ _ _ hrow hr' =>
        have hkept := hold hrow (by rw [hr'] at hcomplete; exact hcomplete)
        rwa [hr']
    | aborted _ _ _ _ hr' | swept _ _ hr' =>
        rw [hr'] at hcomplete
        cases hcomplete
    | @recorded i now row r finalPath ha hcall hid hrow hr' =>
        obtain ⟨f, hfp, hpath, hown⟩ := hf.recording i row finalPath hcall
        refine ⟨f, published_mono h hfp, ho.mono _ _ (hid ▸ hown), row.rel_path, ?_⟩
        rw [hr', hpath]

/-! ### What is published -/

/-- The session was created and its file is no longer there. -/
def Gone (cfg : UploadConfig) (id : JsString) (s : UploadState) : Prop :=
  id ∈ s.usedIds ∧ s.disk.names (tempPath cfg id) = none

lemma gone_step (hs : Owned cfg owner s) (hg : reservesOutside cfg s a = true)
    (h : step cfg s a = some t) {id : JsString} (hgone : Gone cfg id s) : Gone cfg id t := by
  refine ⟨usedIds_step h hgone.1, ?_⟩
  cases hx : t.disk.names (tempPath cfg id) with
  | none => rfl
  | some x =>
      cases name_step h hx with
      | kept hx0 => simp [hgone.2] at hx0
      | created hp hfresh =>
          obtain rfl := tempPath_injective cfg hp
          exact absurd hgone.1 hfresh
      | reserved ha hcall hp =>
          subst ha
          simp [reservesOutside, hcall, ← hp, inTempDir_tempPath] at hg
      | published ha hcall =>
          have hout := (hs.reserved _ _ _ hcall rfl).1
          simp [inTempDir_tempPath] at hout

lemma gone_of_publishes (hs : Owned cfg owner s) (h : step cfg s a = some t) {row : UploadRow}
    (hp : publishes s a = some row) : Gone cfg row.id t := by
  obtain ⟨i, finalPath, x, rfl, hcall, hname⟩ := publishes_eq_some.mp hp
  obtain ⟨hid, htemp⟩ := hs.held i _ row hcall rfl
  have hout := ne_of_inTempDir (inTempDir_tempPath cfg row.id) (hs.reserved i _ _ hcall rfl).1
  refine ⟨usedIds_step h hid, ?_⟩
  rw [step, hcall] at h
  simp only [hname] at h
  obtain rfl := Option.some.inj h
  change (s.disk.rename row.temp_path finalPath).names (tempPath cfg row.id) = none
  rw [Disk.names_rename, if_neg hout.symm, if_pos htemp.symm]

lemma not_publishes_of_gone (hs : Owned cfg owner s) {row : UploadRow}
    (hgone : Gone cfg row.id s) : publishes s a ≠ some row := by
  intro hp
  obtain ⟨i, finalPath, x, -, hcall, hname⟩ := publishes_eq_some.mp hp
  rw [(hs.held i _ row hcall rfl).2, hgone.2] at hname
  cases hname

end Sourced

/-- The sessions whose files the steps of a run publish, in order. -/
def publications (cfg : UploadConfig) : UploadState → List Action → List JsString
  | _, [] => []
  | s, a :: as =>
      ((publishes s a).map UploadRow.id).toList ++
        match step cfg s a with
        | some t => publications cfg t as
        | none => []

/-- The law of a state: counts are covered by the bytes of the source, and what is published
is, and stays, the source of its session. -/
structure IntegrityLaw (source : JsString → List UInt8) (s : UploadState) : Prop where
  temp : ∀ id row bytes, s.uploads.get id = some row →
    s.disk.content row.temp_path = some bytes → row.received_bytes ≤ bytes.length ∧
      bytes.take row.received_bytes = (source id).take row.received_bytes
  published : ∀ f ∈ s.published, ∃ id, f.bytes = source id ∧
    s.disk.content f.path = some (source id)
  complete : ∀ id row, s.uploads.get id = some row → row.status = .complete →
    ∃ f ∈ s.published, f.bytes = source id ∧ s.disk.content f.path = some (source id) ∧
      ∃ rel, row.rel_path = finalRel rel f.path

/-- The files outside the temp directory that no call has reserved are as they were. -/
def NothingOverwritten (cfg : UploadConfig) (s t : UploadState) : Prop :=
  ∀ p bytes, inTempDir cfg p = false → (∀ i c, s.calls i = some c → c.reserved ≠ some p) →
    s.disk.content p = some bytes → t.disk.content p = some bytes

/-- Runs whose appends carry stretches of their sources, and which reserve no name in the temp
directory. -/
abbrev SourcedRun (cfg : UploadConfig) (source : JsString → List UInt8) :=
  Run (Guarded (fun s a => (reservesOutside cfg s a && carriesSource source s a) = true)
    (step cfg))

/-- The invariant of these runs. -/
def Intact (cfg : UploadConfig) (source : JsString → List UInt8) (s : UploadState) : Prop :=
  ∃ owner, Owned cfg owner s ∧ Counted owner s ∧ Sourced source owner s

section Run

variable {cfg : UploadConfig} {source : JsString → List UInt8} {s t : UploadState} {a : Action}
  {as bs : List Action}

lemma intact_init (cfg : UploadConfig) (source : JsString → List UInt8) (store : AuthStore)
    (disk : Disk JsString) : Intact cfg source (init store disk) :=
  ⟨_, owned_init cfg store disk, counted_init store disk, sourced_init source store disk⟩

lemma intact_step (hs : Intact cfg source s)
    (hg : (reservesOutside cfg s a && carriesSource source s a) = true)
    (h : step cfg s a = some t) : Intact cfg source t := by
  obtain ⟨owner, hown, hc, hf⟩ := hs
  rw [Bool.and_eq_true] at hg
  have hwhole : writesWhole a = true := by
    have hcarries := hg.2
    unfold carriesSource at hcarries
    exact (Bool.and_eq_true_iff.mp hcarries).1
  obtain ⟨owner', ho⟩ := exists_ownerStep hown h
  exact ⟨owner', owned_step hown hg.1 h ho, counted_step hown hc hwhole h ho,
    sourced_step hown hc hf hg.2 h ho⟩

lemma intact_run (hs : Intact cfg source s) (h : SourcedRun cfg source s as t) :
    Intact cfg source t :=
  h.invariant (I := Intact cfg source) (fun _ _ _ hu hstep => intact_step hu hstep.1 hstep.2) hs

/-- A session whose file is gone publishes nothing. -/
lemma publications_of_gone {id : JsString} (hs : Intact cfg source s) (hgone : Gone cfg id s)
    (h : SourcedRun cfg source s as t) : id ∉ publications cfg s as := by
  induction h with
  | nil => simp [publications]
  | @cons s u t a as hstep hrun ih =>
      have hu := intact_step hs hstep.1 hstep.2
      obtain ⟨owner, hown, -⟩ := hs
      have hout := (Bool.and_eq_true_iff.mp hstep.1).1
      rw [publications, hstep.2, List.mem_append]
      rintro (hmem | hmem)
      · obtain ⟨row, hrow, hid⟩ := Option.map_eq_some_iff.mp (Option.mem_toList.mp hmem)
        subst hid
        exact not_publishes_of_gone hown hgone hrow
      · exact ih hu (gone_step hown hout hstep.2 hgone) hmem

/-- **A session publishes at most once.** -/
lemma publications_nodup (hs : Intact cfg source s) (h : SourcedRun cfg source s as t) :
    (publications cfg s as).Nodup := by
  induction h with
  | nil => simp [publications]
  | @cons s u t a as hstep hrun ih =>
      have hu := intact_step hs hstep.1 hstep.2
      rw [publications, hstep.2]
      cases hp : publishes s a with
      | none => simpa using ih hu
      | some row =>
          obtain ⟨owner, hown, -⟩ := hs
          have hgone := gone_of_publishes hown hstep.2 hp
          exact List.nodup_cons.mpr ⟨publications_of_gone hu hgone hrun, ih hu⟩

/-- A file outside the temp directory, under a name no call has reserved. -/
def Stays (cfg : UploadConfig) (p : JsString) (bytes : List UInt8) (s : UploadState) : Prop :=
  inTempDir cfg p = false ∧ (∀ i c, s.calls i = some c → c.reserved ≠ some p) ∧
    s.disk.content p = some bytes

lemma stays_step (hs : Intact cfg source s)
    (hg : (reservesOutside cfg s a && carriesSource source s a) = true)
    (h : step cfg s a = some t) {p : JsString} {bytes : List UInt8} (hp : Stays cfg p bytes s) :
    Stays cfg p bytes t := by
  obtain ⟨hout, hfree, hcontent⟩ := hp
  obtain ⟨x, hx, hbytes⟩ := Option.map_eq_some_iff.mp hcontent
  obtain ⟨owner, hown, hc, hf⟩ := hs
  have htemp : ∀ i c, s.calls i = some c → ∀ q ∈ c.tempPaths, inTempDir cfg q = true := by
    intro i c hcall q hq
    obtain ⟨id, -, rfl, -⟩ := hown.temp i c q hcall hq
    exact inTempDir_tempPath cfg id
  refine ⟨hout, fun i c hcall hr => ?_, ?_⟩
  · rcases reserved_step h hcall hr with ⟨c0, hcall0, hr0⟩ | ⟨-, -, -, -, -, -, hnone, -⟩
    · exact hfree i c0 hcall0 hr0
    · simp [hx] at hnone
  · rcases names_step htemp h hout hx with ⟨i, c, hcall, hr, -⟩ | ⟨hx', hsame | hwrote⟩
    · exact absurd hr (hfree i c hcall)
    · exact hsame.trans hcontent
    · -- what is written to is a session's file, published, and its source already
      obtain ⟨i, data, written, fails, row, received, overflow, -, hcall, -⟩ := hwrote
      have hx0 := hown.handle i row x _ _ _ hcall
      obtain ⟨owner', ho⟩ := exists_ownerStep hown h
      rcases hown.name p x row.id hx hx0 with hpt | ⟨f, hfp, hpath⟩
      · simp [hpt, inTempDir_tempPath] at hout
      · obtain ⟨-, hname, -⟩ := hown.published f hfp
        obtain rfl := Option.some.inj ((hpath ▸ hname).symm.trans hx)
        obtain ⟨id, hown', -, hfull⟩ := hf.published f hfp
        have hkept := full_kept hown hc hf (Bool.and_eq_true_iff.mp hg).2 h ho hown' hfull
        rw [Disk.content, hx', Option.map_some, hkept, ← hfull, hbytes]

end Run

/-- **Uploads are intact** along every run whose appends carry stretches of their sources and
which reserves no name in the temp directory. -/
theorem uploads_intact {cfg : UploadConfig} {source : JsString → List UInt8} {store : AuthStore}
    {disk : Disk JsString} {as bs : List Action} {s t : UploadState}
    (hs : SourcedRun cfg source (init store disk) as s) (ht : SourcedRun cfg source s bs t) :
    IntegrityLaw source t ∧ (publications cfg (init store disk) (as ++ bs)).Nodup ∧
      NothingOverwritten cfg s t := by
  have hinit := intact_init cfg source store disk
  have hmid := intact_run hinit hs
  refine ⟨?_, publications_nodup hinit (hs.append ht), fun p bytes hout hfree hcontent => ?_⟩
  · obtain ⟨owner, hown, hc, hf⟩ := intact_run hmid ht
    have hcontent : ∀ f ∈ t.published, ∀ id, owner f.inode = some id →
        f.bytes = source id ∧ t.disk.content f.path = some (source id) := by
      intro f hfp id hid
      obtain ⟨id', hid', hbytes, hfull⟩ := hf.published f hfp
      obtain rfl := Option.some.inj (hid.symm.trans hid')
      exact ⟨hbytes, by rw [Disk.content, (hown.published f hfp).2.1, Option.map_some, hfull]⟩
    refine ⟨fun id row bytes hrow hbytes => ?_, fun f hfp => ?_, fun id row hrow hcomplete => ?_⟩
    · obtain ⟨x, hx, rfl⟩ := Option.map_eq_some_iff.mp hbytes
      have hxo := hown.own id x (hown.ids.known id row hrow) (hown.row id row hrow ▸ hx)
      have hcount := hf.count id row x hrow hxo
      refine ⟨hcount, ?_⟩
      rw [List.prefix_iff_eq_take.mp (hf.stretch x id hxo), List.take_take, min_eq_left hcount]
    · obtain ⟨id, hid, -⟩ := hf.published f hfp
      exact ⟨id, hcontent f hfp id hid⟩
    · obtain ⟨f, hfp, hid, hrel⟩ := hf.complete id row hrow hcomplete
      obtain ⟨hbytes, hthere⟩ := hcontent f hfp id hid
      exact ⟨f, hfp, hbytes, hthere, hrel⟩
  · have hstays : Intact cfg source t ∧ Stays cfg p bytes t := by
      refine ht.invariant (I := fun u => Intact cfg source u ∧ Stays cfg p bytes u)
        (fun u b v hu hstep => ?_) ⟨hmid, hout, hfree, hcontent⟩
      exact ⟨intact_step hu.1 hstep.1 hstep.2, stays_step hu.1 hstep.1 hstep.2 hu.2⟩
    exact hstays.2.2.2

/-! ### Concrete runs -/

/-- What the two sessions of the runs below carry. -/
def twoSources : JsString → List UInt8 := fun id => if id = js "1" then [1, 2, 3] else [9]

/-- Two appends at offset 0 overlap: the second sends its bytes again after the first has
published the file, in two chunks. -/
def sentAgain : List Action :=
  createThree ++ [.append 0 (js "1") (js "d") 0 (some 3), .append 1 (js "1") (js "d") 0 none,
    .openedTemp 0 false, .openedTemp 1 false, .chunk 1 [1, 2] 2 false, .chunk 0 [1, 2, 3] 3 false,
    .closed 0 false 2] ++ finish 0 ++ [.chunk 1 [3] 1 false, .closed 1 true 3]

theorem uploads_intact_sentAgain : ∃ s,
    SourcedRun plainConfig twoSources (init plainStore .empty) sentAgain s ∧
      s.published = [⟨js "/m/a.jpg", 0, [1, 2, 3]⟩] ∧ IntegrityLaw twoSources s ∧
      (publications plainConfig (init plainStore .empty) (sentAgain ++ [])).Nodup ∧
      NothingOverwritten plainConfig s s := by
  obtain ⟨s, hrun, hs⟩ := exists_guarded_run_of_exec
    (fun s a => (reservesOutside plainConfig s a && carriesSource twoSources s a) = true)
    (step plainConfig) (init plainStore .empty) sentAgain
    (fun s => s.published = [⟨js "/m/a.jpg", 0, [1, 2, 3]⟩]) (by decide +kernel)
  obtain ⟨hlaw, honce, hkept⟩ := uploads_intact hrun (.nil s)
  exact ⟨s, hrun, of_decide_eq_true hs, hlaw, honce, hkept⟩

/-- The tail of `finalize` in slot `i`, with its destination in the temp directory. -/
def landInTemp (i : ℕ) (name : String) (taken : ℕ) : List Action :=
  [.resolved i (.ok (js ("/tmp/" ++ name))), .madeDir i false] ++
    List.replicate taken (.reserved i false) ++ [.reserved i false, .renamed i false,
      .recorded i 9]

/-- A library folder is the temp directory. Two appends to session `1` overlap; when the
first has published, session `2` publishes under the name the temp file had. -/
def landedInTemp : List Action :=
  createThree ++ [.append 0 (js "1") (js "d") 0 none, .append 1 (js "1") (js "d") 0 none,
    .openedTemp 0 false, .openedTemp 1 false, .chunk 0 [1, 2, 3] 3 false,
    .chunk 1 [1, 2, 3] 3 false, .closed 0 false 2] ++ landInTemp 0 "a.jpg" 0 ++
  [.closed 1 false 3, .create 2 ⟨js "d", js "f", js "upload-1.part", 1⟩,
    .resolved 2 (.ok (js "/tmp/upload-1.part")), .opened 2 (js "2") false, .inserted 2 4,
    .append 2 (js "2") (js "d") 0 none, .openedTemp 2 false, .chunk 2 [9] 1 false,
    .closed 2 false 5] ++ landInTemp 2 "upload-1.part" 0 ++ landInTemp 1 "a.jpg" 1

/-- **In the temp directory a session publishes twice**, and the second time another
session's file. -/
theorem temp_directory_publishes_twice : ∃ s,
    Run (Guarded (fun s a => carriesSource twoSources s a) (step plainConfig))
      (init plainStore .empty) landedInTemp s ∧
      publications plainConfig (init plainStore .empty) landedInTemp = [js "1", js "2", js "1"] ∧
      s.published.map Published.bytes = [[9], [9], [1, 2, 3]] ∧
      ¬ (publications plainConfig (init plainStore .empty) landedInTemp).Nodup := by
  obtain ⟨s, hrun, hs⟩ := exists_guarded_run_of_exec (fun s a => carriesSource twoSources s a)
    (step plainConfig) (init plainStore .empty) landedInTemp
    (fun s => s.published.map Published.bytes = [[9], [9], [1, 2, 3]]) (by decide +kernel)
  have hpub : publications plainConfig (init plainStore .empty) landedInTemp =
      [js "1", js "2", js "1"] := by decide +kernel
  refine ⟨s, hrun, hpub, of_decide_eq_true hs, ?_⟩
  rw [hpub]
  decide

end LocalCast.Uploads
