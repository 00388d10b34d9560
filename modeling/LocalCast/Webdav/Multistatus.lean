import LocalCast.Foundations.XmlText
import LocalCast.Webdav.Href

/-!
What a client reads from the multistatus document of `modules/webdav/xml.ts`.

* `document`: the characters of the document, from its bytes.
* `readable`: what a field shows as, without the units that XML has no place for. `listing`: the
  paths and the names of a document that has been read.
* `chars_buildMultistatus`: the document as a tree of elements.
* `multistatus_iff`: when the document is well-formed and gives the fields back.
-/

namespace LocalCast.Webdav

open JsString JsNumber

/-! ### Reading a listing -/

/-- The bytes of the document, read as UTF-8. -/
def document (resources : List DavResource) : List Char :=
  utf8Chars (utf8 (buildMultistatus resources))

/-- The units that XML has a place for; a surrogate is half of a character. -/
def isXmlUnit (c : CodeUnit) : Bool :=
  c = 9 || c = 10 || c = 13 || (32 ≤ c && c ≤ 0xFFFD)

/-- A text without the units that XML has no place for, a surrogate without its pair being
`U+FFFD`. -/
def readable (s : JsString) : List Char := chars (s.filter isXmlUnit)

/-- The text among the items of an element. -/
def textOf (items : List Xml.Item) : List Char :=
  items.filterMap fun
    | .char c => some c
    | .element .. => none

/-- The items of the first child with a name. -/
def child (name : String) (items : List Xml.Item) : List Xml.Item :=
  (items.findSome? fun
    | .char _ => none
    | .element n _ children => if n = name.toList then some children else none).getD []

/-- The path and the name of a response. -/
def responseOf : Xml.Item → Option (List Char × List Char)
  | .char _ => none
  | .element n _ items =>
      if n = "D:response".toList then
        some (textOf (child "D:href" items),
          textOf (child "D:displayname" (child "D:prop" (child "D:propstat" items))))
      else none

/-- The paths and the names of a multistatus document. -/
def listing : Xml.Item → List (List Char × List Char)
  | .char _ => []
  | .element _ _ items => items.filterMap responseOf

/-- A percent-encoded path: unreserved units, escapes and slashes. -/
def IsHref (s : JsString) : Prop := ∀ c ∈ s, isUriUnit c = true ∨ c = 47

/-- The document is well-formed, and its paths and names are those of the resources. -/
structure Legible (resources : List DavResource) : Prop where
  wellFormed : Xml.Document (document resources)
  listed : (Xml.read (document resources)).map listing =
    some (resources.map fun r => (readable r.href, readable r.displayName))

/-- Neither `U+FFFE` nor `U+FFFF`. -/
def NoNoncharacter (s : JsString) : Prop := ∀ c ∈ s, c ≠ 0xFFFE ∧ c ≠ 0xFFFF

/-- What is written of a resource has no noncharacter, and its name no carriage return. -/
structure Writable (r : DavResource) : Prop where
  displayName : NoNoncharacter r.displayName
  etag : NoNoncharacter r.etag
  contentType : ∀ type ∈ r.writtenType, NoNoncharacter type
  noReturn : 13 ∉ r.displayName

/-! ### The characters of the document -/

lemma chars_js_append (s : String) (rest : JsString) :
    chars (js s ++ rest) = s.toList ++ chars rest := by
  rw [js]
  induction s.toList with
  | nil => rfl
  | cons c cs ih =>
      rw [List.flatMap_cons, List.append_assoc, chars_encodeChar, ih, List.cons_append]

lemma chars_of_not_pair {c d : CodeUnit} {cs : JsString}
    (h : ¬ (0xD800 ≤ c ∧ c < 0xDC00 ∧ 0xDC00 ≤ d ∧ d < 0xE000)) :
    chars (c :: d :: cs) = chars.single c :: chars (d :: cs) := by
  rw [chars, if_neg h]

/-- A text is read up to a unit that is no second half of a pair. -/
lemma chars_append_unit {c : CodeUnit} (hc : ¬ (0xDC00 ≤ c ∧ c < 0xE000)) (s rest : JsString) :
    chars (s ++ c :: rest) = chars s ++ chars (c :: rest) := by
  induction s using chars.induct with
  | case1 => rfl
  | case2 d =>
      rw [List.singleton_append, chars_of_not_pair fun h => hc h.2.2]
      rfl
  | case3 d e cs hpair ih =>
      rw [List.cons_append, List.cons_append, chars, if_pos hpair, ih, chars, if_pos hpair,
        List.cons_append]
  | case4 d e cs hpair ih =>
      rw [List.cons_append, List.cons_append, chars, if_neg hpair, ← List.cons_append, ih, chars,
        if_neg hpair, List.cons_append]

lemma toNat_single {c : CodeUnit} :
    (chars.single c).toNat = if 0xD800 ≤ c ∧ c < 0xE000 then 0xFFFD else c.toNat := by
  rw [chars.single]
  have hlt := c.toNat_lt
  split_ifs with h
  · rfl
  · simp only [UInt16.le_iff_toNat_le, UInt16.lt_iff_toNat_lt, UInt16.reduceToNat] at h
    have hvalid : c.toNat.isValidChar := by
      rw [Nat.isValidChar]
      omega
    rw [Char.ofNat, dif_pos hvalid]
    rfl

/-- The number of the character that a pair is. -/
lemma toNat_pair {c d : CodeUnit} (hc : 0xD800 ≤ c ∧ c < 0xDC00) (hd : 0xDC00 ≤ d ∧ d < 0xE000) :
    (Char.ofNat (0x10000 + (c.toNat - 0xD800) * 0x400 + (d.toNat - 0xDC00))).toNat =
      0x10000 + (c.toNat - 0xD800) * 0x400 + (d.toNat - 0xDC00) := by
  simp only [UInt16.le_iff_toNat_le, UInt16.lt_iff_toNat_lt, UInt16.reduceToNat] at hc hd
  have hvalid : (0x10000 + (c.toNat - 0xD800) * 0x400 + (d.toNat - 0xDC00)).isValidChar := by
    rw [Nat.isValidChar]
    omega
  rw [Char.ofNat, dif_pos hvalid]
  rfl

lemma escapeChar_of_le {c : Char} (h : 128 ≤ c.toNat) : Xml.escapeChar c = [c] := by
  have hne {d : Char} (hd : d.toNat < 128) : c ≠ d := by
    rintro rfl
    omega
  rw [Xml.escapeChar, if_neg (hne (by decide)), if_neg (hne (by decide)), if_neg (hne (by decide)),
    if_neg (hne (by decide)), if_neg (hne (by decide))]

/-- The units that are escaped. -/
def special : List CodeUnit := [38, 60, 62, 34, 39]

lemma not_mem_special {p : CodeUnit → Bool} (hp : (special.all fun d => !p d) = true)
    {c : CodeUnit} (hc : p c = true) : c ∉ special := by
  intro hmem
  have hnot := List.all_eq_true.mp hp c hmem
  rw [hc] at hnot
  exact Bool.false_ne_true hnot

/-- Another unit is written as it is, and so is the character it is. -/
lemma ESCAPES_of_not_mem {c : CodeUnit} (h : c ∉ special) :
    ESCAPES c = [c] ∧ Xml.escapeChar (chars.single c) = [chars.single c] := by
  simp only [special, List.mem_cons, List.not_mem_nil, or_false, not_or] at h
  obtain ⟨h1, h2, h3, h4, h5⟩ := h
  have hsingle {d : Char} {u : CodeUnit} (hd : d.toNat = u.toNat) (hu : u < 128) (hne : c ≠ u) :
      chars.single c ≠ d := by
    intro h
    have hnat := congrArg Char.toNat h
    rw [toNat_single, hd] at hnat
    simp only [UInt16.lt_iff_toNat_lt, UInt16.reduceToNat] at hu
    split_ifs at hnat
    · omega
    · exact hne (UInt16.toNat_inj.mp hnat)
  rw [ESCAPES, Xml.escapeChar, if_neg h1, if_neg h2, if_neg h3, if_neg h4, if_neg h5,
    if_neg (hsingle (u := 38) rfl (by decide) h1), if_neg (hsingle (u := 60) rfl (by decide) h2),
    if_neg (hsingle (u := 62) rfl (by decide) h3), if_neg (hsingle (u := 34) rfl (by decide) h4),
    if_neg (hsingle (u := 39) rfl (by decide) h5)]
  exact ⟨rfl, rfl⟩

/-- A unit is escaped as the character it is. -/
lemma ESCAPES_of_mem {c : CodeUnit} (h : c ∈ special) :
    ∃ s : String, ∃ tail, ESCAPES c = js s ∧ js s = 38 :: tail ∧
      Xml.escapeChar (chars.single c) = s.toList := by
  simp only [special, List.mem_cons, List.not_mem_nil, or_false] at h
  rcases h with rfl | rfl | rfl | rfl | rfl
  · exact ⟨"&amp;", _, rfl, rfl, by decide⟩
  · exact ⟨"&lt;", _, rfl, rfl, by decide⟩
  · exact ⟨"&gt;", _, rfl, rfl, by decide⟩
  · exact ⟨"&quot;", _, rfl, rfl, by decide⟩
  · exact ⟨"&apos;", _, rfl, rfl, by decide⟩

/-- A text is escaped character by character. -/
lemma chars_flatMap_ESCAPES (s : JsString) :
    chars (s.flatMap ESCAPES) = Xml.escape (chars s) := by
  have hcons (c : Char) (cs : List Char) :
      Xml.escape (c :: cs) = Xml.escapeChar c ++ Xml.escape cs := rfl
  induction s using chars.induct with
  | case1 => rfl
  | case2 c =>
      rw [List.flatMap_singleton, chars, hcons]
      by_cases hc : c ∈ special
      · obtain ⟨s, tail, hjs, -, hchar⟩ := ESCAPES_of_mem hc
        have hread := chars_js_append s []
        rw [List.append_nil] at hread
        rw [hjs, hchar, hread]
        rfl
      · obtain ⟨hself, hchar⟩ := ESCAPES_of_not_mem hc
        rw [hself, hchar]
        rfl
  | case3 c d cs hpair ih =>
      have hself {u : CodeUnit} (hu : 0xD800 ≤ u) : ESCAPES u = [u] :=
        (ESCAPES_of_not_mem (not_mem_special (p := fun u => decide (0xD800 ≤ u)) (by decide)
          (decide_eq_true hu))).1
      rw [List.flatMap_cons, List.flatMap_cons, hself hpair.1,
        hself (UInt16.le_trans (by decide) hpair.2.2.1), List.singleton_append,
        List.singleton_append, chars, if_pos hpair, ih, chars, if_pos hpair, hcons,
        escapeChar_of_le (by rw [toNat_pair ⟨hpair.1, hpair.2.1⟩ hpair.2.2]; omega),
        List.singleton_append]
  | case4 c d cs hpair ih =>
      rw [List.flatMap_cons, chars, if_neg hpair, hcons, ← ih]
      by_cases hc : c ∈ special
      · obtain ⟨s, tail, hjs, -, hchar⟩ := ESCAPES_of_mem hc
        rw [hjs, hchar, chars_js_append]
      · obtain ⟨hself, hchar⟩ := ESCAPES_of_not_mem hc
        rw [hself, hchar, List.singleton_append, List.singleton_append, List.flatMap_cons]
        by_cases hd : d ∈ special
        · obtain ⟨s, tail, hjs, hhead, -⟩ := ESCAPES_of_mem hd
          rw [hjs, hhead, List.cons_append, chars_of_not_pair]
          exact fun h => absurd h.2.2 (by decide)
        · rw [(ESCAPES_of_not_mem hd).1, List.singleton_append, chars_of_not_pair hpair]

/-- A text without the units that the writer drops. -/
def kept (s : JsString) : List Char := chars (s.filter fun c => !isStripped c)

lemma chars_escapeXml (s : JsString) : chars (escapeXml s) = Xml.escape (kept s) := by
  have hfilter : escapeXml s = (s.filter fun c => !isStripped c).flatMap ESCAPES := by
    rw [escapeXml]
    induction s with
    | nil => rfl
    | cons c s ih =>
        rw [List.flatMap_cons, List.filter_append, ih]
        cases hc : isStripped c with
        | true =>
            rw [(ESCAPES_of_not_mem (not_mem_special (by decide) hc)).1,
              List.filter_cons_of_neg (by simp [hc]), List.filter_cons_of_neg (by simp [hc])]
            rfl
        | false =>
            have hall : (ESCAPES c).all (fun d => !isStripped d) = true := by
              rw [ESCAPES]
              split_ifs
              iterate 5 decide
              rw [List.all_cons, hc]
              rfl
            rw [List.filter_cons_of_pos (by simp [hc]), List.flatMap_cons,
              List.filter_eq_self.mpr (List.all_eq_true.mp hall)]
  rw [hfilter, chars_flatMap_ESCAPES, kept]

/-! ### The document as a tree -/

/-- A name in the namespace of WebDAV. -/
def davName (name : String) : List Char := 'D' :: ':' :: name.toList

lemma chars_open {s : String} (name : String) (h : s.toList = '<' :: (davName name ++ ['>']))
    (rest : JsString) : chars (js s ++ rest) = '<' :: (davName name ++ '>' :: chars rest) := by
  rw [chars_js_append, h, List.cons_append, List.append_assoc, List.singleton_append]

lemma chars_close {s : String} (name : String) (h : s.toList = Xml.endTag (davName name))
    (rest : JsString) :
    chars (js s ++ rest) = Xml.endTag (davName name) ++ chars rest := by
  rw [chars_js_append, h]

lemma chars_element {text : JsString} {t : List Char} (name : String)
    (h : chars text = Xml.escape t) (rest : JsString) :
    chars (element name text ++ rest) = '<' :: (davName name ++
      '>' :: (Xml.escape t ++ (Xml.endTag (davName name) ++ chars rest))) := by
  have hend : js "</D:" ++ (js name ++ (js ">" ++ rest)) =
      60 :: (js "/D:" ++ (js name ++ (js ">" ++ rest))) := rfl
  have hopen : "<D:".toList = ['<', 'D', ':'] := rfl
  have hclose : "</D:".toList = ['<', '/', 'D', ':'] := rfl
  have hgt : ">".toList = ['>'] := rfl
  simp only [element, List.append_assoc]
  rw [chars_js_append, chars_js_append, chars_js_append, hend, chars_append_unit (by decide), h,
    ← hend, chars_js_append, chars_js_append, chars_js_append, hopen, hclose, hgt]
  simp [davName, Xml.endTag]

/-- The type of a resource. -/
def typeForest (r : DavResource) (next : Xml.Forest) : Xml.Forest :=
  if r.isCollection then
    .node (davName "resourcetype") [] (.empty (davName "collection") .nil) next
  else .empty (davName "resourcetype") next

/-- `getcontenttype`, where it is written. -/
def contentTypeForest (r : DavResource) (next : Xml.Forest) : Xml.Forest :=
  r.writtenType.elim next fun type => .leaf (davName "getcontenttype") (kept type) next

/-- The date that is written. -/
def lastModified (r : DavResource) : JsString :=
  toUTCString (if r.lastModifiedMs < 0 then ⌈r.lastModifiedMs⌉ else ⌊r.lastModifiedMs⌋)

/-- The status of every property. -/
def okText : List Char := "HTTP/1.1 200 OK".toList

/-- The declaration of the namespace. -/
def davAttributes : List (List Char × List Char) := [("xmlns:D".toList, "DAV:".toList)]

def propsForest (r : DavResource) : Xml.Forest :=
  .leaf (davName "displayname") (kept r.displayName) <| typeForest r <|
    .leaf (davName "getcontentlength") (chars (decimal ⌊r.contentLength⌋.toNat)) <|
    .leaf (davName "getlastmodified") (chars (lastModified r)) <|
    .leaf (davName "getetag") (kept r.etag) <| contentTypeForest r <|
    .empty (davName "supportedlock") .nil

def responseForest (r : DavResource) (next : Xml.Forest) : Xml.Forest :=
  .node (davName "response") []
    (.leaf (davName "href") (kept r.href) <|
      .node (davName "propstat") []
        (.node (davName "prop") [] (propsForest r) <|
          .leaf (davName "status") okText .nil) .nil) next

def responses (resources : List DavResource) : Xml.Forest :=
  resources.foldr responseForest .nil

/-- The element of a document. -/
def multistatus (resources : List DavResource) : Xml.Forest :=
  .node (davName "multistatus") davAttributes (responses resources) .nil

/-- The units of numbers and dates: letters, digits, blanks, commas, hyphens and colons. -/
def isPlain (c : CodeUnit) : Bool :=
  (48 ≤ c && c ≤ 58) || (65 ≤ c && c ≤ 90) || (97 ≤ c && c ≤ 122) || c = 32 || c = 44 || c = 45

lemma chars_cons {c : CodeUnit} (h : ¬ (0xD800 ≤ c ∧ c < 0xE000)) (s : JsString) :
    chars (c :: s) = chars.single c :: chars s := by
  cases s with
  | nil => rfl
  | cons d s =>
      exact chars_of_not_pair fun hpair => h ⟨hpair.1, UInt16.lt_trans hpair.2.1 (by decide)⟩

/-- Nothing is escaped in numbers and dates. -/
lemma chars_plain {s : JsString} (h : s.all isPlain = true) :
    chars s = Xml.escape (chars s) := by
  induction s with
  | nil => rfl
  | cons c s ih =>
      rw [List.all_cons, Bool.and_eq_true] at h
      have hpair : ¬ (0xD800 ≤ c ∧ c < 0xE000) := by
        have hc := h.1
        simp only [isPlain, Bool.or_eq_true, Bool.and_eq_true, decide_eq_true_eq,
          UInt16.le_iff_toNat_le, ← UInt16.toNat_inj, UInt16.reduceToNat] at hc
        simp only [UInt16.le_iff_toNat_le, UInt16.reduceToNat]
        omega
      rw [chars_cons hpair, Xml.escape, List.flatMap_cons,
        (ESCAPES_of_not_mem (not_mem_special (by decide) h.1)).2, List.singleton_append,
        ← Xml.escape, ← ih h.2]

lemma isPlain_decimal (n : ℕ) : (decimal n).all isPlain = true := by
  refine List.all_eq_true.mpr fun c hc => ?_
  have hdigit := isDigit_of_mem_decimal hc
  simp only [isDigit, Bool.and_eq_true, decide_eq_true_eq, UInt16.le_iff_toNat_le,
    UInt16.reduceToNat] at hdigit
  simp only [isPlain, Bool.or_eq_true, Bool.and_eq_true, decide_eq_true_eq,
    UInt16.le_iff_toNat_le, UInt16.reduceToNat]
  omega

lemma isPlain_toUTCString (ms : ℤ) : (toUTCString ms).all isPlain = true := by
  have hpadded (width n : ℕ) : (padded width n).all isPlain = true := by
    rw [padded, List.all_append, isPlain_decimal, Bool.and_true, List.all_replicate]
    simp [isPlain]
  have hname {names : List String} (h : ∀ name ∈ "" :: names, (js name).all isPlain = true)
      (n : ℕ) : (js (names.getD n "")).all isPlain = true := by
    rw [List.getD_eq_getElem?_getD]
    cases hn : names[n]? with
    | none => exact h "" List.mem_cons_self
    | some name => exact h name (List.mem_cons_of_mem _ (List.mem_of_getElem? hn))
  have hday : ∀ n, (js (["Thu", "Fri", "Sat", "Sun", "Mon", "Tue", "Wed"].getD n "")).all
      isPlain = true := hname (by decide)
  have hmonth : ∀ n, (js (["Jan", "Feb", "Mar", "Apr", "May", "Jun", "Jul", "Aug", "Sep", "Oct",
      "Nov", "Dec"].getD n "")).all isPlain = true := hname (by decide)
  have hsign (year : ℤ) : (if year < 0 then js "-" else []).all isPlain = true := by
    split_ifs <;> decide
  have hmarks : ∀ mark ∈ [", ", " ", ":", " GMT"], (js mark).all isPlain = true := by decide
  rw [toUTCString]
  split_ifs
  · decide
  · simp only [List.all_append, hpadded, hday, hmonth, hsign, hmarks ", " (by decide),
      hmarks " " (by decide), hmarks ":" (by decide), hmarks " GMT" (by decide), Bool.and_true]

lemma typeForest_write (r : DavResource) (next : Xml.Forest) :
    (typeForest r next).write = (typeForest r .nil).write ++ next.write := by
  rw [typeForest, typeForest]
  split_ifs <;> simp [Xml.Forest.write]

lemma contentTypeForest_write (r : DavResource) (next : Xml.Forest) :
    (contentTypeForest r next).write = (contentTypeForest r .nil).write ++ next.write := by
  rw [contentTypeForest, contentTypeForest]
  cases r.writtenType with
  | none => rfl
  | some type => simp [Xml.Forest.write]

lemma chars_type (r : DavResource) (rest : JsString) :
    chars ((if r.isCollection then js "<D:resourcetype><D:collection/></D:resourcetype>"
      else js "<D:resourcetype/>") ++ rest) = (typeForest r .nil).write ++ chars rest := by
  rw [typeForest]
  split_ifs
  · rw [chars_js_append]
    rfl
  · rw [chars_js_append]
    rfl

lemma chars_contentType (r : DavResource) (rest : JsString) :
    chars ((r.writtenType.map fun type =>
      element "getcontenttype" (escapeXml type)).toList.flatten ++ rest) =
      (contentTypeForest r .nil).write ++ chars rest := by
  rw [contentTypeForest]
  cases r.writtenType with
  | none => rfl
  | some type =>
      rw [Option.map_some, Option.toList_some, List.flatten_singleton,
        chars_element _ (chars_escapeXml type)]
      simp [Xml.Forest.write]

lemma responseForest_write (r : DavResource) (next : Xml.Forest) :
    (responseForest r next).write = (responseForest r .nil).write ++ next.write := by
  simp [responseForest, Xml.Forest.write]

/-- A resource as elements. -/
lemma chars_renderResource (r : DavResource) (rest : JsString) :
    chars (renderResource r ++ rest) = (responseForest r .nil).write ++ chars rest := by
  have hstatus : js "<D:status>HTTP/1.1 200 OK</D:status>" =
      element "status" (js "HTTP/1.1 200 OK") := by decide
  have hok : chars (js "HTTP/1.1 200 OK") = Xml.escape okText := by decide
  have hlock (rest : JsString) : chars (js "<D:supportedlock/>" ++ rest) =
      '<' :: (davName "supportedlock" ++ '/' :: '>' :: chars rest) := chars_js_append _ rest
  simp only [renderResource, renderProps, List.flatten_append, List.flatten_cons,
    List.flatten_nil, List.append_nil, List.append_assoc, List.cons_append, List.nil_append]
  rw [chars_open "response" rfl, chars_element _ (chars_escapeXml _),
    chars_open "propstat" rfl, chars_open "prop" rfl,
    chars_element _ (chars_escapeXml _), chars_type,
    chars_element _ (chars_plain (isPlain_decimal _)),
    chars_element _ (chars_plain (isPlain_toUTCString _)), chars_element _ (chars_escapeXml _),
    chars_contentType, hlock, chars_close "prop" rfl, hstatus, chars_element _ hok,
    chars_close "propstat" rfl, chars_close "response" rfl]
  simp only [responseForest, propsForest, Xml.Forest.write, typeForest_write r (.leaf _ _ _),
    contentTypeForest_write r (.empty _ _), lastModified, List.flatMap_nil, List.nil_append,
    List.append_assoc, List.cons_append, List.append_nil]

/-- **The document is a tree of elements.** -/
lemma document_eq (resources : List DavResource) :
    document resources = Xml.utf8Decl ++ (multistatus resources).write := by
  have hrows (rest : JsString) : chars ((resources.map renderResource).flatten ++ rest) =
      (responses resources).write ++ chars rest := by
    induction resources with
    | nil => rfl
    | cons r resources ih =>
        rw [List.map_cons, List.flatten_cons, List.append_assoc, chars_renderResource, ih,
          ← List.append_assoc, ← responseForest_write]
        rfl
  have hclose : chars (js "</D:multistatus>") = Xml.endTag (davName "multistatus") := by decide
  have hopen : "<D:multistatus xmlns:D=\"DAV:\">".toList = '<' :: (davName "multistatus" ++
      (davAttributes.flatMap Xml.writeAttribute ++ ['>'])) := rfl
  have hdecl : "<?xml version=\"1.0\" encoding=\"utf-8\"?>".toList = Xml.utf8Decl := rfl
  have hread : document resources = chars (buildMultistatus resources) := utf8Chars_flatMap _
  rw [hread, buildMultistatus]
  simp only [List.flatten_append, List.flatten_cons, List.flatten_nil, List.append_nil,
    List.append_assoc]
  rw [chars_js_append, chars_js_append, hrows, hclose, hopen, hdecl]
  simp [multistatus, Xml.Forest.write]

/-! ### Its characters -/

/-- A character of a text is a unit of it, or a pair. -/
lemma of_mem_chars {s : JsString} {d : Char} (h : d ∈ chars s) :
    0x10000 ≤ d.toNat ∨ ∃ c ∈ s, d = chars.single c := by
  induction s using chars.induct with
  | case1 => cases h
  | case2 c => exact .inr ⟨c, List.mem_cons_self, List.mem_singleton.mp h⟩
  | case3 c e cs hpair ih =>
      rw [chars, if_pos hpair, List.mem_cons] at h
      rcases h with heq | h
      · rw [heq, toNat_pair ⟨hpair.1, hpair.2.1⟩ hpair.2.2]
        exact .inl (by omega)
      · rcases ih h with hbig | ⟨u, hu, hd⟩
        · exact .inl hbig
        · exact .inr ⟨u, List.mem_cons_of_mem _ (List.mem_cons_of_mem _ hu), hd⟩
  | case4 c e cs hpair ih =>
      rw [chars_of_not_pair hpair, List.mem_cons] at h
      rcases h with rfl | h
      · exact .inr ⟨c, List.mem_cons_self, rfl⟩
      · rcases ih h with hbig | ⟨u, hu, hd⟩
        · exact .inl hbig
        · exact .inr ⟨u, List.mem_cons_of_mem _ hu, hd⟩

/-- A unit that is no surrogate is a character. -/
lemma single_mem_chars {s : JsString} {c : CodeUnit} (hc : ¬ (0xD800 ≤ c ∧ c < 0xE000))
    (h : c ∈ s) : chars.single c ∈ chars s := by
  induction s using chars.induct with
  | case1 => cases h
  | case2 e =>
      rw [List.mem_singleton.mp h]
      exact List.mem_singleton_self _
  | case3 e f cs hpair ih =>
      rw [chars, if_pos hpair]
      rcases List.mem_cons.mp h with rfl | h
      · exact absurd ⟨hpair.1, UInt16.lt_trans hpair.2.1 (by decide)⟩ hc
      · rcases List.mem_cons.mp h with rfl | h
        · exact absurd ⟨UInt16.le_trans (by decide) hpair.2.2.1, hpair.2.2.2⟩ hc
        · exact List.mem_cons_of_mem _ (ih h)
  | case4 e f cs hpair ih =>
      rw [chars_of_not_pair hpair]
      rcases List.mem_cons.mp h with rfl | h
      · exact List.mem_cons_self
      · exact List.mem_cons_of_mem _ (ih h)

/-- What the writer keeps is legal, but for the noncharacters. -/
lemma legal_kept_iff {s : JsString} : Xml.Legal (kept s) ↔ NoNoncharacter s := by
  constructor
  · intro h c hc
    have hone {u : CodeUnit} (hu : isStripped u = false) (hpair : ¬ (0xD800 ≤ u ∧ u < 0xE000))
        (hbad : Xml.isChar (chars.single u) = false) : c ≠ u := by
      rintro rfl
      have hmem := single_mem_chars hpair (List.mem_filter.mpr ⟨hc, by simp [hu]⟩ :
        c ∈ s.filter fun c => !isStripped c)
      exact Bool.false_ne_true (hbad.symm.trans (h _ hmem))
    exact ⟨hone (by decide) (by decide) (by decide), hone (by decide) (by decide) (by decide)⟩
  · intro h d hd
    rcases of_mem_chars hd with hbig | ⟨c, hc, rfl⟩
    · simp only [Xml.isChar, Bool.or_eq_true, Bool.and_eq_true, decide_eq_true_eq]
      omega
    · obtain ⟨hmem, hkept⟩ := List.mem_filter.mp hc
      obtain ⟨hfffe, hffff⟩ := h c hmem
      have hlt := c.toNat_lt
      simp only [isStripped, Bool.not_eq_true', Bool.or_eq_false_iff, Bool.and_eq_false_iff,
        decide_eq_false_iff_not, UInt16.le_iff_toNat_le, ← UInt16.toNat_inj,
        UInt16.reduceToNat] at hkept
      simp only [ne_eq, ← UInt16.toNat_inj, UInt16.reduceToNat] at hfffe hffff
      simp only [Xml.isChar, toNat_single, Bool.or_eq_true, Bool.and_eq_true, decide_eq_true_eq]
      split_ifs with hpair
      · omega
      · simp only [UInt16.le_iff_toNat_le, UInt16.lt_iff_toNat_lt, UInt16.reduceToNat] at hpair
        omega

lemma readable_eq_kept {s : JsString} (h : NoNoncharacter s) : readable s = kept s := by
  rw [readable, kept, List.filter_congr]
  intro c hc
  obtain ⟨hfffe, hffff⟩ := h c hc
  have hlt := c.toNat_lt
  simp only [ne_eq, ← UInt16.toNat_inj, UInt16.reduceToNat] at hfffe hffff
  rw [Bool.eq_iff_iff]
  simp only [isXmlUnit, isStripped, Bool.not_eq_true', Bool.or_eq_false_iff, Bool.or_eq_true,
    Bool.and_eq_false_iff, Bool.and_eq_true, decide_eq_false_iff_not, decide_eq_true_eq,
    UInt16.le_iff_toNat_le, ← UInt16.toNat_inj, UInt16.reduceToNat]
  omega

/-- A carriage return in a name is one of what it shows as. -/
lemma noReturn_kept_iff {s : JsString} : (∀ c ∈ kept s, c.toNat ≠ 13) ↔ 13 ∉ s := by
  constructor
  · intro h hmem
    exact h _ (single_mem_chars (by decide) (List.mem_filter.mpr ⟨hmem, by decide⟩)) (by decide)
  · intro h d hd hnat
    rcases of_mem_chars hd with hbig | ⟨c, hc, rfl⟩
    · omega
    · rw [toNat_single] at hnat
      split_ifs at hnat
      · omega
      · have hreturn : c = 13 := UInt16.toNat_inj.mp hnat
        exact h (hreturn ▸ List.mem_of_mem_filter hc)

/-! ### What is read -/

lemma plainAttributes_dav : Xml.PlainAttributes davAttributes := ⟨by decide, by decide⟩

/-- The texts of a document that are not its own. -/
lemma with_multistatus {p : List Char → Prop} (hplain : ∀ s : JsString, s.all isPlain = true →
    p (chars s)) (hstatus : p okText) {resources : List DavResource} :
    (multistatus resources).With p ↔ ∀ r ∈ resources, p (kept r.href) ∧ p (kept r.displayName) ∧
      p (kept r.etag) ∧ ∀ type ∈ r.writtenType, p (kept type) := by
  have hname : ∀ name ∈ ["response", "href", "propstat", "prop", "displayname", "resourcetype",
      "collection", "getcontentlength", "getlastmodified", "getetag", "getcontenttype",
      "supportedlock", "status", "multistatus"], Xml.isName (davName name) = true := by decide
  have htype (r : DavResource) (next : Xml.Forest) :
      (typeForest r next).With p ↔ next.With p := by
    rw [typeForest]
    split_ifs
    · simp [Xml.Forest.With, Xml.plainAttributes_nil, hname]
    · simp [Xml.Forest.With, hname]
  have hcontent (r : DavResource) (next : Xml.Forest) : (contentTypeForest r next).With p ↔
      (∀ type ∈ r.writtenType, p (kept type)) ∧ next.With p := by
    rw [contentTypeForest]
    cases r.writtenType with
    | none => simp
    | some type => simp [Xml.Forest.With, hname]
  have hrows : (responses resources).With p ↔ ∀ r ∈ resources, p (kept r.href) ∧
      p (kept r.displayName) ∧ p (kept r.etag) ∧ ∀ type ∈ r.writtenType, p (kept type) := by
    induction resources with
    | nil => simp [responses, Xml.Forest.With]
    | cons r resources ih =>
        rw [List.forall_mem_cons, ← ih]
        simp [responses, responseForest, propsForest, Xml.Forest.With, Xml.plainAttributes_nil,
          hname, htype, hcontent, hstatus, hplain _ (isPlain_decimal _),
          hplain (lastModified r) (isPlain_toUTCString _), and_assoc]
  rw [← hrows]
  simp [multistatus, Xml.Forest.With, plainAttributes_dav, hname]

/-- The document is well-formed exactly where nothing in it is a noncharacter. -/
lemma valid_multistatus {resources : List DavResource} : (multistatus resources).Valid ↔
    ∀ r ∈ resources, NoNoncharacter r.href ∧ NoNoncharacter r.displayName ∧
      NoNoncharacter r.etag ∧ ∀ type ∈ r.writtenType, NoNoncharacter type := by
  have hplain (s : JsString) (h : s.all isPlain = true) : Xml.Legal (chars s) := by
    intro d hd
    rcases of_mem_chars hd with hbig | ⟨c, hc, rfl⟩
    · simp only [Xml.isChar, Bool.or_eq_true, decide_eq_true_eq]
      omega
    · have hunit := List.all_eq_true.mp h c hc
      simp only [isPlain, Bool.or_eq_true, Bool.and_eq_true, decide_eq_true_eq,
        UInt16.le_iff_toNat_le, ← UInt16.toNat_inj, UInt16.reduceToNat] at hunit
      simp only [Xml.isChar, toNat_single, Bool.or_eq_true, Bool.and_eq_true, decide_eq_true_eq]
      split_ifs
      · omega
      · omega
  rw [Xml.Forest.Valid, with_multistatus hplain (by decide)]
  simp only [legal_kept_iff]

/-- What is read of a document. -/
lemma listing_multistatus (resources : List DavResource) (name : List Char)
    (attributes : List (List Char × List Char)) :
    listing (.element name attributes (responses resources).normalize.items) =
      resources.map fun r => (Xml.normalizeLines (kept r.href),
        Xml.normalizeLines (kept r.displayName)) := by
  have htext (t : List Char) : textOf (t.map Xml.Item.char) = t := by
    induction t with
    | nil => rfl
    | cons c t ih => exact congrArg (c :: ·) ih
  rw [listing]
  induction resources with
  | nil => rfl
  | cons r resources ih =>
      have hitems : (responses (r :: resources)).normalize.items =
          (responseForest r .nil).normalize.items ++ (responses resources).normalize.items := rfl
      have hfirst : (responseForest r .nil).normalize.items.filterMap responseOf =
          [(textOf ((Xml.normalizeLines (kept r.href)).map .char),
            textOf ((Xml.normalizeLines (kept r.displayName)).map .char))] := rfl
      rw [hitems, List.filterMap_append, hfirst, ih, htext, htext]
      rfl

/-- An escaped path shows as itself. -/
lemma href_read {s : JsString} (h : IsHref s) :
    NoNoncharacter s ∧ Xml.normalizeLines (kept s) = readable s := by
  have hunits : ∀ c ∈ s, c.toNat < 128 ∧ c ≠ 13 := by
    intro c hc
    rcases h c hc with hunit | rfl
    · refine ⟨?_, fun hreturn => absurd (hreturn ▸ hunit) (by decide)⟩
      rw [isUriUnit, Bool.or_eq_true] at hunit
      rcases hunit with hunit | hunit
      · exact isUnreserved_lt hunit
      · rw [eq_of_beq hunit]
        decide
    · decide
  have hnon : NoNoncharacter s := by
    intro c hc
    have hlt := (hunits c hc).1
    simp only [ne_eq, ← UInt16.toNat_inj, UInt16.reduceToNat]
    omega
  refine ⟨hnon, ?_⟩
  rw [readable_eq_kept hnon]
  exact Xml.normalizeLines_eq_self (noReturn_kept_iff.mpr fun hmem => (hunits 13 hmem).2 rfl)

lemma legible_iff {resources : List DavResource} (h : ∀ r ∈ resources, IsHref r.href) :
    Legible resources ↔ ∀ r ∈ resources, Writable r := by
  have hread (hvalid : (multistatus resources).Valid) :
      (Xml.read (document resources)).map listing =
        some (resources.map fun r =>
          (readable r.href, Xml.normalizeLines (kept r.displayName))) := by
    rw [document_eq, multistatus, Xml.read_write hvalid, Option.map_some, listing_multistatus]
    exact congrArg some (List.map_congr_left fun r hr => by rw [(href_read (h r hr)).2])
  constructor
  · intro hlegible r hr
    have hvalid : (multistatus resources).Valid := by
      refine Xml.Forest.valid_of_legal ((with_multistatus (fun _ _ => trivial) trivial).mpr ?_) ?_
      · exact fun _ _ => ⟨trivial, trivial, trivial, fun _ _ => trivial⟩
      · have hlegal := Xml.legal_of_document hlegible.wellFormed
        rw [document_eq, Xml.legal_append] at hlegal
        exact hlegal.2
    obtain ⟨-, hname, hetag, htype⟩ := valid_multistatus.mp hvalid r hr
    refine ⟨hname, hetag, htype, ?_⟩
    have hlisted := (hread hvalid).symm.trans hlegible.listed
    have hsame := (Prod.mk.inj (List.map_eq_map_iff.mp (Option.some.inj hlisted) r hr)).2
    rw [readable_eq_kept hname] at hsame
    rw [← noReturn_kept_iff, ← hsame]
    exact Xml.normalizeFrom_noReturn false _
  · intro hwritable
    have hvalid : (multistatus resources).Valid := valid_multistatus.mpr fun r hr =>
      ⟨(href_read (h r hr)).1, (hwritable r hr).displayName, (hwritable r hr).etag,
        (hwritable r hr).contentType⟩
    refine ⟨?_, ?_⟩
    · rw [document_eq]
      exact Xml.document_write hvalid
    · rw [hread hvalid]
      refine congrArg some (List.map_congr_left fun r hr => ?_)
      rw [readable_eq_kept (hwritable r hr).displayName,
        Xml.normalizeLines_eq_self (noReturn_kept_iff.mpr (hwritable r hr).noReturn)]

/-- The paths of a listing are escaped. -/
lemma isHref_toResource {cm : Library.CaseMap} {base folderId : JsString}
    {segments : List JsString} {file : Http.ServedFile} {resource : DavResource}
    (hbase : IsHref base) (h : toResource cm base folderId segments file = some resource) :
    IsHref resource.href := by
  have hparts {segments parts : List JsString}
      (h : segments.mapM encodeURIComponent = some parts) : ∀ p ∈ parts, IsHref p := by
    induction segments generalizing parts with
    | nil =>
        cases h
        simp
    | cons s segments ih =>
        rw [List.mapM_cons] at h
        obtain ⟨p, hp, h⟩ := Option.bind_eq_some_iff.mp h
        obtain ⟨tail, htail, h⟩ := Option.bind_eq_some_iff.mp h
        cases h
        exact List.forall_mem_cons.mpr
          ⟨fun c hc => .inl (isUriUnit_of_encode hp c hc), ih htail⟩
  obtain ⟨path, hpath, h⟩ := Option.bind_eq_some_iff.mp h
  obtain ⟨parts, hmap, rfl⟩ := Option.map_eq_some_iff.mp hpath
  have hslash : IsHref (js "/") := fun c hc => .inr (List.mem_singleton.mp hc)
  have hjoin : IsHref (join (js "/") parts) := by
    intro c hc
    rcases mem_join hc with hc | ⟨p, hp, hc⟩
    · exact hslash c hc
    · exact hparts hmap p hp c hc
  have hend : IsHref (if file.isDir then js "/" else []) := by
    split_ifs
    · exact hslash
    · intro c hc
      cases hc
  cases h
  intro c hc
  simp only [List.mem_append] at hc
  rcases hc with ((hc | hc) | hc) | hc
  · exact hbase c hc
  · exact hslash c hc
  · exact hjoin c hc
  · exact hend c hc

/-- **When a listing is legible**: where nothing that is written of a resource is a noncharacter,
and no name has a carriage return. -/
theorem multistatus_iff {resources : List DavResource} (h : ∀ r ∈ resources, IsHref r.href) :
    Legible resources ↔ ∀ r ∈ resources, Writable r :=
  legible_iff h

/-- A folder and a file whose name has all that is escaped, and a control. -/
theorem multistatus_escaped :
    Legible [ ⟨js "/dav/f1/", js "فیلم‌ها", true, 0, 0, js "W/\"0-0\"", none⟩,
      ⟨js "/dav/f1/Q%26A.pdf", js "<Q&A's>\x01 \"1\".pdf", false, 7, 951782399000,
        js "W/\"7-951782399000\"", some (js "application/pdf")⟩ ] := by
  have hwritable {s : JsString} (h : s.all (fun c => c ≠ 0xFFFE ∧ c ≠ 0xFFFF) = true) :
      NoNoncharacter s := fun c hc => by simpa using List.all_eq_true.mp h c hc
  refine (multistatus_iff ?_).mpr ?_
  · have hhref {s : JsString} (h : s.all (fun c => isUriUnit c || c = 47) = true) : IsHref s :=
      fun c hc => by simpa using List.all_eq_true.mp h c hc
    exact List.forall_mem_cons.mpr ⟨hhref (by decide), List.forall_mem_cons.mpr
      ⟨hhref (by decide), by simp⟩⟩
  · refine List.forall_mem_cons.mpr ⟨⟨hwritable (by decide), hwritable (by decide), ?_, by decide⟩,
      List.forall_mem_cons.mpr ⟨⟨hwritable (by decide), hwritable (by decide), ?_, by decide⟩,
        by simp⟩⟩
    · rintro type ⟨⟩
    · rintro type ⟨⟩
      exact hwritable (by decide)

/-- A file whose name ends in `U+FFFF`, as NTFS takes it. -/
def noncharacterFile : DavResource :=
  ⟨js "/dav/f1/a%EF%BF%BF", [97, 0xFFFF], false, 3, 0, js "W/\"3-0\"",
    some (js "application/octet-stream")⟩

/-- The listing of a folder with such a file is no XML. -/
theorem noncharacter_illegible :
    toResource ⟨lower, upper⟩ (js "/dav") (js "f1") [[97, 0xFFFF]] ⟨3, 0, false, [97, 0xFFFF]⟩ =
      some noncharacterFile ∧
    ¬ Xml.Document (document [noncharacterFile]) ∧ ¬ Legible [noncharacterFile] := by
  have hdocument : ¬ Xml.Document (document [noncharacterFile]) := by
    intro h
    have hlegal := Xml.legal_of_document h
    rw [document_eq, Xml.legal_append] at hlegal
    have hvalid := Xml.Forest.valid_of_legal
      ((with_multistatus (fun _ _ => trivial) trivial).mpr
        fun _ _ => ⟨trivial, trivial, trivial, fun _ _ => trivial⟩) hlegal.2
    obtain ⟨-, hname, -⟩ := valid_multistatus.mp hvalid noncharacterFile List.mem_cons_self
    exact (hname 0xFFFF (by decide)).2 rfl
  exact ⟨rfl, hdocument, fun h => hdocument h.wellFormed⟩

end LocalCast.Webdav
