import LocalCast.Foundations.Json
import LocalCast.Foundations.Keyset
import LocalCast.Http.Invisible

/-!
A directory read page by page: `GET /folders/:id/entries` with the cursors its answers carry.

* `encodeCursor`, `decodeCursor`: the codec; `decodeCursor_encodeCursor` is the round trip, for
  names of any units.
* `Crawl`, `crawlStep`: a device follows `nextCursor` while the library changes between pages.
* `Catalog`: ids follow from the folder and the path, and names are text.
* `PagesExact`: entries strictly in order, no id twice but where its row changed kind, and in the
  end every row that was there all along exactly once.
* `pages_exact`: so it is for every sequence of changes and pages, and without changes the pages
  come to an end.
-/

namespace LocalCast.Http

open JsString JsNumber Contract Db Auth Library Runs

/-! ### Cursors -/

/-- `JSON.stringify(cursor)`. -/
def cursorText (c : ListingCursor) : JsString :=
  js "\x7b\"isDir\":" ++ (if c.isDir then js "1" else js "0") ++ js ",\"name\":" ++
    Json.quote c.name ++ js "\x7d"

def encodeCursor (c : ListingCursor) : JsString := base64url (utf8 (cursorText c))

/-- `decodeCursor`; a corrupt cursor restarts the listing. -/
def decodeCursor : Option JsString → Option ListingCursor
  | none => none
  | some raw =>
      if raw = [] then none
      else match Json.parse (ofUtf8 (ofBase64url raw)) with
        | some (.obj members) =>
            match Json.get members (js "name"), Json.get members (js "isDir") with
            | some (.str name), some (.num n) =>
                if n = 0 then some ⟨false, name⟩ else if n = 1 then some ⟨true, name⟩ else none
            | _, _ => none
        | _ => none

lemma wellFormed_cursorText (c : ListingCursor) : WellFormed (cursorText c) := by
  refine (((WellFormed.append (wellFormed_js _) ?_).append (wellFormed_js _)).append
    (Json.wellFormed_quote c.name)).append (wellFormed_js _)
  split_ifs <;> exact wellFormed_js _

/-- The digit of the kind. -/
lemma number_kind (b : Bool) (rest : JsString) :
    Json.number ((if b then js "1" else js "0") ++ 44 :: rest) =
      some (if b then 1 else 0, 44 :: rest) := by
  cases b <;> simp [Json.number, js, encodeChar, isDigit, digitsValue]

lemma parse_cursorText (c : ListingCursor) : Json.parse (cursorText c) =
    some (.obj [(js "isDir", .num (if c.isDir then 1 else 0)), (js "name", .str c.name)]) := by
  have htext : cursorText c = 123 :: (Json.quote (js "isDir") ++ 58 ::
      ((if c.isDir then js "1" else js "0") ++ 44 :: (Json.quote (js "name") ++ 58 ::
        (Json.quote c.name ++ [125])))) := by
    have hisDir : Json.quote (js "isDir") = js "\"isDir\"" := by decide
    have hname : Json.quote (js "name") = js "\"name\"" := by decide
    rw [hisDir, hname]
    simp [cursorText, js, encodeChar]
  obtain ⟨n, hn⟩ : ∃ n, (cursorText c).length + 1 = n + 4 := by
    refine ⟨(cursorText c).length - 3, ?_⟩
    have hlen : 3 ≤ (cursorText c).length := by
      rw [htext]
      simp only [Json.quote, List.length_cons, List.length_append]
      omega
    omega
  have hkind (fuel : ℕ) (rest : JsString) :
      Json.value (fuel + 1) ((if c.isDir then js "1" else js "0") ++ 44 :: rest) =
        some (.num (if c.isDir then 1 else 0), 44 :: rest) := by
    have hnumber := number_kind c.isDir rest
    cases hb : c.isDir with
    | false =>
        rw [hb] at hnumber
        exact Json.value_number (by decide) hnumber fuel
    | true =>
        rw [hb] at hnumber
        exact Json.value_number (by decide) hnumber fuel
  rw [Json.parse, hn, htext, Json.value_members, Json.members_cons (hkind _ _),
    Json.members_last (Json.value_quote _ c.name [125])]
  rfl

/-- **The codec is exact**: a cursor comes back whatever its name holds. -/
theorem decodeCursor_encodeCursor (c : ListingCursor) :
    decodeCursor (some (encodeCursor c)) = some c := by
  have hbytes : ofBase64url (encodeCursor c) = utf8 (cursorText c) :=
    ofBase64url_base64url fun b hb => lt_of_mem_utf8 hb
  have hne : encodeCursor c ≠ [] := by
    intro hnil
    rw [hnil] at hbytes
    have hback := ofUtf8_utf8 (wellFormed_cursorText c)
    have hhead : (cursorText c).head? = some 123 := by simp [cursorText, js, encodeChar]
    rw [← hback, ← hbytes] at hhead
    cases hhead
  obtain ⟨isDir, name⟩ := c
  simp only [decodeCursor, if_neg hne, hbytes, ofUtf8_utf8 (wellFormed_cursorText _),
    parse_cursorText]
  cases isDir <;> simp [Json.get, js, encodeChar]

/-! ### A crawl -/

/-- A device that follows `nextCursor`: the library, the cursor of its next request, whether the
last answer had none, the entries so far, and the rows that were there all along. -/
structure Crawl where
  lib : LibraryState
  cursor : Option JsString
  done : Bool
  entries : List FileEntry
  kept : List FileRow

/-- The library changes, or the device asks for a page. -/
inductive CrawlAction where
  | change (lib : LibraryState)
  | page (limit : ℕ)

def startCrawl (lib : LibraryState) : Crawl :=
  { lib := lib, cursor := none, done := false, entries := [], kept := lib.files.rows }

/-- A request that is refused ends the crawl. -/
def crawlStep (sv : Services) (deviceId folderId path : JsString) (s : Crawl) :
    CrawlAction → Option Crawl
  | .change lib =>
      some { s with lib := lib, kept := s.kept.filter fun row => row ∈ lib.files.rows }
  | .page limit =>
      if s.done ∨ limit < 1 ∨ 500 < limit then none
      else match answer sv s.lib deviceId
          (.entries folderId path (decodeCursor s.cursor) limit) with
        | .entries _ _ entries nextCursor =>
            some { s with
              cursor := nextCursor.map encodeCursor
              done := nextCursor.isNone
              entries := s.entries ++ entries }
        | _ => none

/-- The rows of a directory. -/
def rowsIn (files : Table FileRow) (folderId parentPath : JsString) : List FileRow :=
  files.rows.filter fun row => row.folder_id = folderId && row.parent_path = parentPath

/-- The path of a name in a directory. -/
def pathIn (parentPath name : JsString) : JsString :=
  if parentPath = [] then name else parentPath ++ 47 :: name

/-- The index as the indexer keeps it: ids follow from the folder and the path, paths from the
directory and the name, and names are stored as text. -/
structure Catalog (fileIdFor : JsString → JsString → JsString) (files : Table FileRow) : Prop where
  ids : ∀ row ∈ files.rows, row.id = fileIdFor row.folder_id row.rel_path
  paths : ∀ row ∈ files.rows, row.rel_path = pathIn row.parent_path row.name
  names : ∀ row ∈ files.rows, WellFormed row.name

def keepsCatalog (fileIdFor : JsString → JsString → JsString) : CrawlAction → Prop
  | .change lib => Catalog fileIdFor lib.files
  | .page _ => True

/-! ### The law -/

/-- The order of a listing: directories first, then the bytes of the name. -/
def entryBefore (a b : FileEntry) : Prop :=
  (a.isDir = true ∧ b.isDir = false) ∨ (a.isDir = b.isDir ∧ utf8 a.name < utf8 b.name)

/-- Entries are strictly in order, no id comes twice but for rows that changed kind, and a crawl
that is done has every row of the directory that was there all along exactly once. -/
structure PagesExact (folderId path : JsString) (s : Crawl) : Prop where
  increasing : s.entries.Pairwise entryBefore
  distinct : s.entries.Pairwise fun a b => a.id = b.id → a.isDir ≠ b.isDir
  complete : s.done = true → ∀ row ∈ s.kept, row.folder_id = folderId →
    row.parent_path = normaliseListingPath path → s.entries.count (rowToEntry row) = 1

/-! ### The order -/

/-- Directories first, then by name. -/
def entryKey (e : FileEntry) : Bool ×ₗ String := toLex (!e.isDir, toText e.name)

def listKey (row : FileRow) : Bool ×ₗ String := toLex (!row.is_dir, toText row.name)

def cursorKey (c : ListingCursor) : Bool ×ₗ String := toLex (!c.isDir, toText c.name)

lemma entryKey_rowToEntry (row : FileRow) : entryKey (rowToEntry row) = listKey row := rfl

lemma entryBefore_of_lt {a b : FileEntry} (h : entryKey a < entryKey b) : entryBefore a b := by
  rcases Prod.Lex.lt_iff.mp h with hkind | ⟨hkind, hname⟩
  · simp only [entryKey, ofLex_toLex] at hkind
    revert hkind
    cases ha : a.isDir <;> cases hb : b.isDir <;> simp [entryBefore, ha, hb]
  · simp only [entryKey, ofLex_toLex, Bool.not_inj_iff] at hkind hname
    exact .inr ⟨hkind, toText_lt_iff.mp hname⟩

lemma listsBefore_eq (a b : FileRow) : listsBefore a b = decide (listKey a ≤ listKey b) := by
  rw [Bool.eq_iff_iff, decide_eq_true_iff, listKey, listKey, Prod.Lex.le_iff]
  cases ha : a.is_dir <;> cases hb : b.is_dir <;> simp [listsBefore, ha, hb]

lemma afterCursor_eq (c : Option ListingCursor) (row : FileRow) :
    afterCursor c row = Keyset.after (c.map cursorKey) (listKey row) := by
  cases c with
  | none => rfl
  | some c =>
      rw [Option.map_some, Keyset.after, Bool.eq_iff_iff, decide_eq_true_iff, cursorKey, listKey,
        Prod.Lex.lt_iff]
      cases ha : c.isDir <;> cases hb : row.is_dir <;> simp [afterCursor, ha, hb]

/-- The statement of the route is keyset pagination by kind and name. -/
lemma listing_eq (files : Table FileRow) (folderId parentPath : JsString)
    (c : Option ListingCursor) (limit : ℕ) : listing files folderId parentPath c limit =
      (Keyset.listed listKey (rowsIn files folderId parentPath) (c.map cursorKey)).take
        (limit + 1) := by
  have hsort : listsBefore = fun a b => decide (listKey a ≤ listKey b) := by
    funext a b
    exact listsBefore_eq a b
  have hafter : afterCursor c = fun row => Keyset.after (c.map cursorKey) (listKey row) :=
    funext (afterCursor_eq c)
  rw [listing, hsort, hafter]
  rfl

variable {fileIdFor : JsString → JsString → JsString} {files : Table FileRow}
  {folderId parentPath path : JsString}

lemma mem_rowsIn {row : FileRow} : row ∈ rowsIn files folderId parentPath ↔
    row ∈ files.rows ∧ row.folder_id = folderId ∧ row.parent_path = parentPath := by
  simp [rowsIn]

/-- Names are unique in a directory. -/
lemma nodup_listKey (h : Catalog fileIdFor files) :
    ((rowsIn files folderId parentPath).map listKey).Nodup := by
  have hrows : (rowsIn files folderId parentPath).Nodup :=
    (List.Nodup.of_map _ files.nodup).filter _
  refine (List.nodup_map_iff_inj_on hrows).mpr fun a ha b hb hab => ?_
  obtain ⟨ha, hfa, hpa⟩ := mem_rowsIn.mp ha
  obtain ⟨hb, hfb, hpb⟩ := mem_rowsIn.mp hb
  have htext : toText a.name = toText b.name := congrArg (fun k => (ofLex k).2) hab
  have hname := (h.names a ha).eq_of_toText (h.names b hb) htext
  have hid : a.id = b.id := by
    rw [h.ids a ha, h.ids b hb, h.paths a ha, h.paths b hb, hfa, hfb, hpa, hpb, hname]
  exact Table.eq_of_key ha hb hid

/-! ### A page -/

variable {sv : Services} {deviceId : JsString} {s t : Crawl}

/-- The rows a crawl has still to list. -/
def ahead (folderId path : JsString) (s : Crawl) : List FileRow :=
  rowsIn s.lib.files folderId (normaliseListingPath path)

/-- What an answered page does. -/
structure PageStep (folderId path : JsString) (s t : Crawl) (limit : ℕ) : Prop where
  positive : 0 < limit
  open_ : s.done = false
  lib : t.lib = s.lib
  kept : t.kept = s.kept
  entries : t.entries = s.entries ++ (Keyset.page listKey (ahead folderId path s)
    ((decodeCursor s.cursor).map cursorKey) limit).map rowToEntry
  next : (t.done = true ∧ Keyset.next listKey (ahead folderId path s)
      ((decodeCursor s.cursor).map cursorKey) limit = none) ∨
    (t.done = false ∧ ∃ c, t.cursor = some (encodeCursor c) ∧
      Keyset.next listKey (ahead folderId path s) ((decodeCursor s.cursor).map cursorKey) limit =
        some (cursorKey c))

lemma page_step {limit : ℕ}
    (h : crawlStep sv deviceId folderId path s (.page limit) = some t) :
    PageStep folderId path s t limit := by
  rw [crawlStep] at h
  split_ifs at h with hbad
  obtain ⟨hdone, hpos, -⟩ : s.done = false ∧ ¬ limit < 1 ∧ ¬ 500 < limit := by
    simpa [not_or] using hbad
  have hlimit : 0 < limit := by omega
  cases hcan : assertCan s.lib.store deviceId folderId .list with
  | error e => simp [answer, hcan] at h
  | ok u =>
      cases hfolder : getFolder s.lib.store folderId with
      | error e => simp [answer, hcan, hfolder] at h
      | ok folder =>
          set pos := (decodeCursor s.cursor).map cursorKey with hposdef
          set l := Keyset.listed listKey (ahead folderId path s) pos with hl
          have hlisting : listing s.lib.files folderId (normaliseListingPath path)
              (decodeCursor s.cursor) limit = l.take (limit + 1) := listing_eq _ _ _ _ _
          have hpage : (l.take (limit + 1)).take limit =
              Keyset.page listKey (ahead folderId path s) pos limit := by
            rw [List.take_take, Nat.min_eq_left (Nat.le_succ limit)]
            rfl
          have hmore : limit < (l.take (limit + 1)).length ↔ limit < l.length := by
            rw [List.length_take]
            omega
          simp only [answer, hcan, hfolder, hlisting, hpage, hmore, Option.some.injEq] at h
          subst h
          refine ⟨hlimit, hdone, rfl, rfl, rfl, ?_⟩
          by_cases hlt : limit < l.length
          · have hnonempty : Keyset.page listKey (ahead folderId path s) pos limit ≠ [] := by
              intro hnil
              have hlength : (Keyset.page listKey (ahead folderId path s) pos limit).length =
                  limit := by
                rw [Keyset.page, List.length_take]
                exact Nat.min_eq_left hlt.le
              rw [hnil] at hlength
              exact hlimit.ne hlength
            obtain ⟨last, hlast⟩ : ∃ last, (Keyset.page listKey (ahead folderId path s) pos
                limit).getLast? = some last := ⟨_, List.getLast?_eq_some_getLast hnonempty⟩
            refine .inr ⟨?_, ⟨last.is_dir, last.name⟩, ?_, ?_⟩
            · simp [hlt, hlast]
            · simp [hlt, hlast]
            · rw [Keyset.next, if_pos hlt, hlast]
              rfl
          · refine .inl ⟨?_, ?_⟩
            · simp [hlt]
            · rw [Keyset.next, if_neg hlt]

/-- A device that may list the folder is answered. -/
lemma page_answered {limit : ℕ} {folder : FolderRow} (hdone : s.done = false) (h1 : 1 ≤ limit)
    (h500 : limit ≤ 500) (hcan : assertCan s.lib.store deviceId folderId .list = .ok ())
    (hfolder : getFolder s.lib.store folderId = .ok folder) :
    ∃ t, crawlStep sv deviceId folderId path s (.page limit) = some t := by
  have hbad : ¬ (s.done = true ∨ limit < 1 ∨ 500 < limit) := by
    rw [hdone]
    simp only [Bool.false_eq_true, false_or]
    omega
  simp only [crawlStep, if_neg hbad, answer, hcan, hfolder]
  exact ⟨_, rfl⟩

/-! ### The invariant -/

/-- An entry as the index has it. -/
structure Listed (fileIdFor : JsString → JsString → JsString) (folderId parentPath : JsString)
    (e : FileEntry) : Prop where
  id : e.id = fileIdFor folderId (pathIn parentPath e.name)
  name : WellFormed e.name

/-- The entries are in order up to the resume point, and have the rows there all along up to it. -/
structure CrawlInv (fileIdFor : JsString → JsString → JsString) (folderId path : JsString)
    (s : Crawl) : Prop where
  catalog : Catalog fileIdFor s.lib.files
  kept : ∀ row ∈ s.kept, row ∈ s.lib.files.rows
  listed : ∀ e ∈ s.entries, Listed fileIdFor folderId (normaliseListingPath path) e
  increasing : s.entries.Pairwise fun a b => entryKey a < entryKey b
  reached : s.done = false → ∃ pos : Option ListingCursor, s.cursor = pos.map encodeCursor ∧
    (∀ e ∈ s.entries, ∃ c ∈ pos, entryKey e ≤ cursorKey c) ∧
    ∀ row ∈ s.kept, row ∈ ahead folderId path s →
      Keyset.after (pos.map cursorKey) (listKey row) = false → rowToEntry row ∈ s.entries
  complete : s.done = true → ∀ row ∈ s.kept, row ∈ ahead folderId path s →
    rowToEntry row ∈ s.entries

lemma decodeCursor_map (pos : Option ListingCursor) : decodeCursor (pos.map encodeCursor) = pos := by
  cases pos with
  | none => rfl
  | some c => exact decodeCursor_encodeCursor c

lemma crawlInv_start {lib : LibraryState} (h : Catalog fileIdFor lib.files) :
    CrawlInv fileIdFor folderId path (startCrawl lib) :=
  ⟨h, fun _ hrow => hrow, by simp [startCrawl], List.Pairwise.nil,
    fun _ => ⟨none, rfl, by simp [startCrawl], by simp [Keyset.after]⟩, by simp [startCrawl]⟩

/-- A change of the library leaves the entries, and fewer rows that were there all along. -/
lemma CrawlInv.change {lib : LibraryState} (h : CrawlInv fileIdFor folderId path s)
    (hcat : Catalog fileIdFor lib.files) : CrawlInv fileIdFor folderId path { s with
      lib := lib, kept := s.kept.filter fun row => row ∈ lib.files.rows } := by
  have hback {row : FileRow} (hkept : row ∈ s.kept.filter fun row => row ∈ lib.files.rows)
      (hin : row ∈ rowsIn lib.files folderId (normaliseListingPath path)) :
      row ∈ s.kept ∧ row ∈ ahead folderId path s := by
    have hkept := (List.mem_filter.mp hkept).1
    exact ⟨hkept, mem_rowsIn.mpr ⟨h.kept row hkept, (mem_rowsIn.mp hin).2⟩⟩
  refine ⟨hcat, ?_, h.listed, h.increasing, ?_, ?_⟩
  · intro row hrow
    simpa using (List.mem_filter.mp hrow).2
  · intro hdone
    obtain ⟨pos, hcursor, hbound, hall⟩ := h.reached hdone
    refine ⟨pos, hcursor, hbound, fun row hkept hin => ?_⟩
    obtain ⟨hkept, hin⟩ := hback hkept hin
    exact hall row hkept hin
  · intro hdone row hkept hin
    obtain ⟨hkept, hin⟩ := hback hkept hin
    exact h.complete hdone row hkept hin

lemma listed_of_mem {row : FileRow} (hcat : Catalog fileIdFor files)
    (h : row ∈ rowsIn files folderId parentPath) :
    Listed fileIdFor folderId parentPath (rowToEntry row) := by
  obtain ⟨hrow, hfolder, hparent⟩ := mem_rowsIn.mp h
  refine ⟨?_, hcat.names row hrow⟩
  show row.id = fileIdFor folderId (pathIn parentPath row.name)
  rw [hcat.ids row hrow, hcat.paths row hrow, hfolder, hparent]

lemma CrawlInv.page {limit : ℕ} (h : CrawlInv fileIdFor folderId path s)
    (hstep : PageStep folderId path s t limit) : CrawlInv fileIdFor folderId path t := by
  obtain ⟨pos, hcursor, hbound, hall⟩ := h.reached hstep.open_
  have hdecode : decodeCursor s.cursor = pos := by rw [hcursor, decodeCursor_map]
  have hentries := hstep.entries
  have hnext := hstep.next
  rw [hdecode] at hentries hnext
  have hnodup : ((ahead folderId path s).map listKey).Nodup := nodup_listKey h.catalog
  have hahead : ahead folderId path t = ahead folderId path s := by rw [ahead, ahead, hstep.lib]
  set page := Keyset.page listKey (ahead folderId path s) (pos.map cursorKey) limit with hpage
  -- a row that was there all along is in an earlier page, or in this one unless it is beyond it
  have hkeptPage {row : FileRow} (hkept : row ∈ t.kept) (hin : row ∈ ahead folderId path t)
      (hhere : Keyset.after (pos.map cursorKey) (listKey row) = true → row ∈ page) :
      rowToEntry row ∈ t.entries := by
    rw [hstep.kept] at hkept
    rw [hahead] at hin
    rw [hentries, List.mem_append]
    cases hafter : Keyset.after (pos.map cursorKey) (listKey row) with
    | false => exact .inl (hall row hkept hin hafter)
    | true => exact .inr (List.mem_map_of_mem (hhere hafter))
  refine ⟨?_, ?_, ?_, ?_, ?_, ?_⟩
  · rw [hstep.lib]
    exact h.catalog
  · rw [hstep.lib, hstep.kept]
    exact h.kept
  · intro e he
    rw [hentries] at he
    rcases List.mem_append.mp he with he | he
    · exact h.listed e he
    · obtain ⟨row, hrow, rfl⟩ := List.mem_map.mp he
      exact listed_of_mem h.catalog (Keyset.mem_page hrow).1
  · rw [hentries]
    refine List.pairwise_append.mpr ⟨h.increasing, ?_, ?_⟩
    · exact List.pairwise_map.mpr (Keyset.pairwise_page hnodup)
    · intro a ha b hb
      obtain ⟨row, hrow, rfl⟩ := List.mem_map.mp hb
      obtain ⟨c, hc, hle⟩ := hbound a ha
      have hafter := (Keyset.mem_page hrow).2
      rw [Option.mem_def.mp hc] at hafter
      exact hle.trans_lt (of_decide_eq_true hafter)
  · intro hdone
    rcases hnext with ⟨htrue, -⟩ | ⟨-, c, hc, hkey⟩
    · rw [hdone] at htrue
      cases htrue
    · refine ⟨some c, hc, ?_, ?_⟩
      · intro e he
        refine ⟨c, rfl, ?_⟩
        rw [hentries] at he
        rcases List.mem_append.mp he with he | he
        · obtain ⟨c', hc', hle⟩ := hbound e he
          have hafter := Keyset.after_next hkey
          rw [Option.mem_def.mp hc'] at hafter
          exact hle.trans (of_decide_eq_true hafter).le
        · obtain ⟨row, hrow, rfl⟩ := List.mem_map.mp he
          exact Keyset.le_of_mem_page hnodup hkey hrow
      · intro row hkept hin hbefore
        refine hkeptPage hkept hin fun hafter => ?_
        have hle : listKey row ≤ cursorKey c := not_lt.mp (of_decide_eq_false hbefore)
        rw [hahead] at hin
        exact Keyset.mem_page_of_le hnodup hkey hin hafter hle
  · intro hdone row hkept hin
    rcases hnext with ⟨-, hnone⟩ | ⟨hfalse, -⟩
    · refine hkeptPage hkept hin fun hafter => ?_
      rw [hahead] at hin
      exact Keyset.mem_page_of_last hstep.positive hnone hin hafter
    · rw [hdone] at hfalse
      cases hfalse

lemma crawlInv_step {a : CrawlAction} (h : CrawlInv fileIdFor folderId path s)
    (hkeeps : keepsCatalog fileIdFor a)
    (hstep : crawlStep sv deviceId folderId path s a = some t) :
    CrawlInv fileIdFor folderId path t := by
  cases a with
  | change lib =>
      cases hstep
      exact h.change hkeeps
  | page limit => exact h.page (page_step hstep)

/-! ### The result -/

lemma pathIn_injective {n m : JsString} (h : pathIn parentPath n = pathIn parentPath m) : n = m := by
  unfold pathIn at h
  split_ifs at h
  · exact h
  · simpa using h

/-- The invariant carries the law. -/
lemma CrawlInv.pagesExact (hinj : ∀ f p q, fileIdFor f p = fileIdFor f q → p = q)
    (h : CrawlInv fileIdFor folderId path s) : PagesExact folderId path s := by
  refine ⟨h.increasing.imp entryBefore_of_lt, ?_, ?_⟩
  · -- entries of one id have one name, and are in order, so their kinds differ
    refine List.Pairwise.imp_of_mem ?_ h.increasing
    intro a b ha hb hlt hid hkind
    have hname : a.name = b.name := by
      rw [(h.listed a ha).id, (h.listed b hb).id] at hid
      exact pathIn_injective (hinj _ _ _ hid)
    have hsame : entryKey a = entryKey b := by rw [entryKey, entryKey, hname, hkind]
    exact absurd hlt (hsame ▸ lt_irrefl _)
  · intro hdone row hkept hfolder hparent
    have hnodup : s.entries.Nodup := h.increasing.imp fun hlt heq => by simp [heq] at hlt
    have hin : row ∈ ahead folderId path s :=
      mem_rowsIn.mpr ⟨h.kept row hkept, hfolder, hparent⟩
    exact List.count_eq_one_of_mem hnodup (h.complete hdone row hkept hin)

/-- What is left to do while nothing changes: the rows ahead, and a last page. -/
def left (folderId path : JsString) (s : Crawl) : ℕ :=
  if s.done then 0
  else (ahead folderId path s).countP (fun row =>
    Keyset.after ((decodeCursor s.cursor).map cursorKey) (listKey row)) + 1

lemma left_page {limit : ℕ} (hstep : PageStep folderId path s t limit) :
    left folderId path t < left folderId path s := by
  have hahead : ahead folderId path t = ahead folderId path s := by rw [ahead, ahead, hstep.lib]
  rcases hstep.next with ⟨hdone, -⟩ | ⟨hdone, c, hc, hkey⟩
  · simp [left, hdone, hstep.open_]
  · have hcount := Keyset.count_after_next hkey
    have hdecode : decodeCursor t.cursor = some c := by rw [hc, decodeCursor_encodeCursor]
    simp only [left, hdone, hstep.open_, hahead, hdecode, Option.map_some]
    simpa using hcount

/-- Without changes the pages come to an end: at most one for each row of the directory, and a
last one. -/
lemma pages_terminate {limits : List ℕ}
    (h : Run (Steps (crawlStep sv deviceId folderId path)) s (limits.map .page) t) :
    limits.length ≤ (ahead folderId path s).length + 1 := by
  have honly : ∀ a ∈ limits.map CrawlAction.page, ∃ limit, a = .page limit := by
    intro a ha
    obtain ⟨limit, -, rfl⟩ := List.mem_map.mp ha
    exact ⟨limit, rfl⟩
  have hrun := h.within_iff_forall.mpr honly
  have hlength := hrun.length_le (I := fun _ => True) (μ := left folderId path)
    (fun _ _ _ _ _ => trivial) (by
      rintro u a v - ⟨⟨limit, rfl⟩, hstep⟩
      exact left_page (page_step hstep)) trivial
  rw [List.length_map] at hlength
  refine hlength.trans ?_
  rw [left]
  split_ifs
  · omega
  · exact Nat.add_le_add_right List.countP_le_length 1

/-- **Keyset pagination is exact**, for every sequence of changes to the library and of pages. The
entries are strictly in order, no id comes twice unless its row changed kind, and a crawl that is
done has every row that was there all along exactly once; as long as it is not done and the device
may list the folder a request is answered, and while nothing changes there is an end to that; and
cursors come back as they were. -/
theorem pages_exact (sv : Services) (deviceId folderId path : JsString)
    (fileIdFor : JsString → JsString → JsString)
    (hinj : ∀ f p q, fileIdFor f p = fileIdFor f q → p = q) (lib : LibraryState)
    (hcat : Catalog fileIdFor lib.files) (as : List CrawlAction) (s : Crawl)
    (hrun : Run (Guarded (fun _ a => keepsCatalog fileIdFor a)
      (crawlStep sv deviceId folderId path)) (startCrawl lib) as s) :
    PagesExact folderId path s ∧
      (∀ limit folder, s.done = false → 1 ≤ limit → limit ≤ 500 →
        assertCan s.lib.store deviceId folderId .list = .ok () →
        getFolder s.lib.store folderId = .ok folder →
        ∃ t, crawlStep sv deviceId folderId path s (.page limit) = some t) ∧
      (∀ (limits : List ℕ) t, Run (Steps (crawlStep sv deviceId folderId path)) s
          (limits.map CrawlAction.page) t →
        limits.length ≤ (ahead folderId path s).length + 1) ∧
      ∀ c, decodeCursor (some (encodeCursor c)) = some c := by
  have hinv : CrawlInv fileIdFor folderId path s :=
    hrun.invariant (fun _ _ _ h hstep => crawlInv_step h hstep.1 hstep.2) (crawlInv_start hcat)
  exact ⟨hinv.pagesExact hinj, fun _ _ h h1 h500 hcan hf => page_answered h h1 h500 hcan hf,
    fun _ _ h => pages_terminate h, decodeCursor_encodeCursor⟩

/-- The text that is hashed to the id of a file. -/
def hashedText (folderId relPath : JsString) : JsString := folderId ++ 0 :: relPath

/-- The folder `f` with a film at its top, which the device `d` may use. -/
def filmLibrary : LibraryState where
  store :=
    { devices := .empty, pairing_tokens := .empty
      folder_permissions := ⟨[⟨js "d", js "f", .full⟩], List.nodup_singleton _⟩
      shared_folders := ⟨[⟨js "f", js "C:\\m", js "Films", true, true, true, true, none, none,
        none, 0⟩], List.nodup_singleton _⟩ }
  files := ⟨[⟨hashedText (js "f") (js "é.mp4"), js "f", js "é.mp4", [], js "é.mp4", false, some 3,
    some 0⟩], List.nodup_singleton _⟩
  disk := plainTree

lemma catalog_film : Catalog hashedText filmLibrary.files := by
  refine ⟨?_, ?_, ?_⟩ <;> intro row hrow <;> obtain rfl := List.mem_singleton.mp hrow
  · rfl
  · rfl
  · exact wellFormed_js "é.mp4"

lemma hashedText_injective (f p q : JsString) (h : hashedText f p = hashedText f q) : p = q := by
  simpa [hashedText] using h

theorem pages_exact_film : ∃ s, Run (Guarded (fun _ a => keepsCatalog hashedText a)
      (crawlStep plainServices (js "d") (js "f") [])) (startCrawl filmLibrary) [.page 1] s ∧
    s.done = true ∧ s.entries.map FileEntry.name = [js "é.mp4"] ∧ PagesExact (js "f") [] s := by
  have hrows : (filmLibrary.files.rows.filter fun row => row.folder_id = js "f" &&
      row.parent_path = normaliseListingPath []).filter (afterCursor none) =
        filmLibrary.files.rows := by decide +kernel
  have hlisting : listing filmLibrary.files (js "f") (normaliseListingPath []) none 1 =
      filmLibrary.files.rows := by
    rw [listing, hrows]
    exact congrArg (List.take 2) (List.mergeSort_singleton _)
  have hcan : assertCan filmLibrary.store (js "d") (js "f") .list = .ok () := by decide +kernel
  obtain ⟨folder, hfolder⟩ : ∃ folder, getFolder filmLibrary.store (js "f") = .ok folder :=
    ⟨_, by rfl⟩
  have hstep : crawlStep plainServices (js "d") (js "f") [] (startCrawl filmLibrary) (.page 1) =
      some { startCrawl filmLibrary with
        done := true, entries := filmLibrary.files.rows.map rowToEntry } := by
    simp only [crawlStep, startCrawl, decodeCursor, answer, hcan, hfolder, hlisting]
    rfl
  have hrun : Run (Guarded (fun _ a => keepsCatalog hashedText a)
      (crawlStep plainServices (js "d") (js "f") [])) (startCrawl filmLibrary) [.page 1] _ :=
    .single ⟨trivial, hstep⟩
  exact ⟨_, hrun, rfl, rfl, (pages_exact plainServices (js "d") (js "f") [] hashedText
    hashedText_injective filmLibrary catalog_film _ _ hrun).1⟩

end LocalCast.Http
