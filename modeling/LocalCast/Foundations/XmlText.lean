import LocalCast.Foundations.Xml

/-!
How XML documents are read, and how a tree of elements is written.

* `read`: a reader of documents without comments, processing instructions and `CDATA` sections.
  It normalises line ends and replaces references.
* `Forest`, `write`: elements that hold a text or other elements, in a row.
* `document_write`: what is written is a document; `read_write`: what it is read as.
-/

namespace Xml

/-! ### The reader -/

/-- Line ends, after a carriage return or not: all of them are read as a line feed. -/
def normalizeFrom : Bool → List Char → List Char
  | _, [] => []
  | cr, c :: s =>
      if c.toNat = 13 then Char.ofNat 10 :: normalizeFrom true s
      else if c.toNat = 10 ∧ cr = true then normalizeFrom false s
      else c :: normalizeFrom false s

def normalizeLines (s : List Char) : List Char := normalizeFrom false s

def takeName (s : List Char) : Option (List Char × List Char) :=
  let name := s.takeWhile (within nameChar)
  if isName name then some (name, s.dropWhile (within nameChar)) else none

/-- The rest of a reference, after `&`. -/
def takeReference (s : List Char) : Option (Char × List Char) :=
  match s.dropWhile (· ≠ ';') with
  | [] => none
  | _ :: rest => (reference (s.takeWhile (· ≠ ';'))).map fun c => (c, rest)

/-- The rest of an attribute value, after its first quote. White space in it is read as blanks. -/
def takeValue (q : Char) : ℕ → List Char → Option (List Char × List Char)
  | 0, _ => none
  | _ + 1, [] => none
  | n + 1, c :: s =>
      if c = q then some ([], s)
      else if c = '<' then none
      else if c = '&' then do
        let (d, rest) ← takeReference s
        let (v, rest) ← takeValue q n rest
        some (d :: v, rest)
      else do
        let (v, rest) ← takeValue q n s
        some ((if isSpace c then ' ' else c) :: v, rest)

def takeAttribute (s : List Char) : Option ((List Char × List Char) × List Char) := do
  let (name, rest) ← takeName s
  match rest.dropWhile isSpace with
  | '=' :: rest =>
      match rest.dropWhile isSpace with
      | q :: rest =>
          if q ∈ quotes then do
            let (v, rest) ← takeValue q (rest.length + 1) rest
            some ((name, v), rest)
          else none
      | [] => none
  | _ => none

/-- `(S Attribute)* S?`. -/
def takeAttributes : ℕ → List Char → Option (List (List Char × List Char) × List Char)
  | 0, s => some ([], s)
  | n + 1, s =>
      let rest := s.dropWhile isSpace
      if s.head?.any isSpace ∧ rest.head?.any (within nameStartChar) then do
        let (a, rest) ← takeAttribute rest
        let (attributes, rest) ← takeAttributes n rest
        some (a :: attributes, rest)
      else some ([], rest)

structure Tag where
  name : List Char
  attributes : List (List Char × List Char)
  closed : Bool

/-- The rest of a tag that begins an element, after `<`. -/
def takeTag (s : List Char) : Option (Tag × List Char) := do
  let (name, rest) ← takeName s
  let (attributes, rest) ← takeAttributes rest.length rest
  if (attributes.map Prod.fst).Nodup then
    match rest with
    | '>' :: rest => some (⟨name, attributes, false⟩, rest)
    | '/' :: '>' :: rest => some (⟨name, attributes, true⟩, rest)
    | _ => none
  else none

/-- The end tag of an element. -/
def takeEnd (name : List Char) : List Char → Option (List Char)
  | '<' :: '/' :: s => do
      let (n, rest) ← takeName s
      match rest.dropWhile isSpace with
      | '>' :: rest => if n = name then some rest else none
      | _ => none
  | _ => none

/-- What a document is read as. -/
inductive Item where
  | char (c : Char)
  | element (name : List Char) (attributes : List (List Char × List Char)) (children : List Item)

/-- The rest of an element, after `<`, where `content` reads what is in it. -/
def takeElement (content : List Char → Option (List Item × List Char)) (s : List Char) :
    Option (Item × List Char) := do
  let (tag, rest) ← takeTag s
  if tag.closed then some (.element tag.name tag.attributes [], rest)
  else do
    let (children, rest) ← content rest
    let rest ← takeEnd tag.name rest
    some (.element tag.name tag.attributes children, rest)

/-- Content up to an end tag or the end; every turn takes a character. -/
def takeContent : ℕ → List Char → Option (List Item × List Char)
  | 0, _ => none
  | _ + 1, [] => some ([], [])
  | n + 1, c :: s =>
      if c = '<' then
        if s.head? = some '/' then some ([], c :: s)
        else do
          let (item, rest) ← takeElement (takeContent n) s
          let (items, rest) ← takeContent n rest
          some (item :: items, rest)
      else if c = '&' then do
        let (d, rest) ← takeReference s
        let (items, rest) ← takeContent n rest
        some (.char d :: items, rest)
      else if c = ']' ∧ s.take 2 = [']', '>'] then none
      else do
        let (items, rest) ← takeContent n s
        some (.char c :: items, rest)

/-- What the declaration of a document in UTF-8 may say. -/
def isDecl (attributes : List (List Char × List Char)) : Bool :=
  (attributes.map Prod.fst).isPrefixOf ["version".toList, "encoding".toList, "standalone".toList] &&
    attributes ≠ [] &&
    attributes.all fun a =>
      if a.1 = "version".toList then isVersionNum a.2
      else if a.1 = "encoding".toList then a.2.map Char.toLower = "utf-8".toList
      else a.2 = "yes".toList || a.2 = "no".toList

def takeDecl (s : List Char) : Option (List Char) :=
  if "<?xml".toList.isPrefixOf s then do
    let (attributes, rest) ← takeAttributes s.length (s.drop 5)
    match rest with
    | '?' :: '>' :: rest => if isDecl attributes then some rest else none
    | _ => none
  else some s

/-- The element that a document is. -/
def read (s : List Char) : Option Item :=
  if s.all isChar then do
    let body ← takeDecl (normalizeLines s)
    match body.dropWhile isSpace with
    | '<' :: rest => do
        let (item, rest) ← takeElement (takeContent (rest.length + 1)) rest
        if rest.all isSpace then some item else none
    | _ => none
  else none

/-! ### Writing -/

/-- Elements in a row. -/
inductive Forest where
  | nil
  | leaf (name text : List Char) (next : Forest)
  | empty (name : List Char) (next : Forest)
  | node (name : List Char) (attributes : List (List Char × List Char)) (children next : Forest)

def escapeChar (c : Char) : List Char :=
  if c = '&' then "&amp;".toList
  else if c = '<' then "&lt;".toList
  else if c = '>' then "&gt;".toList
  else if c = Char.ofNat 34 then "&quot;".toList
  else if c = Char.ofNat 39 then "&apos;".toList
  else [c]

def escape (s : List Char) : List Char := s.flatMap escapeChar

def writeAttribute (a : List Char × List Char) : List Char :=
  ' ' :: (a.1 ++ '=' :: Char.ofNat 34 :: (a.2 ++ [Char.ofNat 34]))

def endTag (name : List Char) : List Char := '<' :: '/' :: (name ++ ['>'])

namespace Forest

def write : Forest → List Char
  | nil => []
  | leaf name text next =>
      '<' :: (name ++ '>' :: (escape text ++ (endTag name ++ next.write)))
  | empty name next => '<' :: (name ++ '/' :: '>' :: next.write)
  | node name attributes children next =>
      '<' :: (name ++ (attributes.flatMap writeAttribute ++
        '>' :: (children.write ++ (endTag name ++ next.write))))

/-- What it is read as, up to line ends. -/
def items : Forest → List Item
  | nil => []
  | leaf name text next => .element name [] (text.map .char) :: next.items
  | empty name next => .element name [] [] :: next.items
  | node name attributes children next =>
      .element name attributes children.items :: next.items

/-- Normalise the line ends of the texts. -/
def normalize : Forest → Forest
  | nil => nil
  | leaf name text next => leaf name (normalizeLines text) next.normalize
  | empty name next => empty name next.normalize
  | node name attributes children next => node name attributes children.normalize next.normalize

end Forest

/-- An attribute value that is written as it is. -/
def PlainValue (v : List Char) : Prop :=
  ∀ c ∈ v, isChar c = true ∧ c ≠ '<' ∧ c ≠ '&' ∧ c ≠ Char.ofNat 34 ∧ (isSpace c = true → c = ' ')

instance (v : List Char) : Decidable (PlainValue v) :=
  decidable_of_iff (v.all (fun c => decide (isChar c = true ∧ c ≠ '<' ∧ c ≠ '&' ∧
    c ≠ Char.ofNat 34 ∧ (isSpace c = true → c = ' '))) = true)
    (by simp only [PlainValue, List.all_eq_true, decide_eq_true_eq])

/-- Attributes with names and plain values, no name twice. -/
structure PlainAttributes (attributes : List (List Char × List Char)) : Prop where
  plain : ∀ a ∈ attributes, isName a.1 = true ∧ PlainValue a.2
  nodup : (attributes.map Prod.fst).Nodup

/-- Names and attributes can be written, and the texts are as `p` says. -/
def Forest.With (p : List Char → Prop) : Forest → Prop
  | nil => True
  | leaf name text next => isName name = true ∧ p text ∧ next.With p
  | empty name next => isName name = true ∧ next.With p
  | node name attributes children next =>
      isName name = true ∧ PlainAttributes attributes ∧ children.With p ∧ next.With p

/-- Elements that can be written. -/
def Forest.Valid (forest : Forest) : Prop := forest.With Legal

/-! ### What is written is in the grammar -/

lemma escapeChar_eq_reference {c : Char} (h : escapeChar c ≠ [c]) : Reference (escapeChar c) := by
  rw [escapeChar] at h ⊢
  split_ifs at h ⊢
  · exact ⟨"amp".toList, '&', by decide, by decide⟩
  · exact ⟨"lt".toList, '<', by decide, by decide⟩
  · exact ⟨"gt".toList, '>', by decide, by decide⟩
  · exact ⟨"quot".toList, Char.ofNat 34, by decide, by decide⟩
  · exact ⟨"apos".toList, Char.ofNat 39, by decide, by decide⟩
  · exact absurd rfl h

/-- The characters that are written as they are. -/
lemma escapeChar_eq_self {c : Char} (h : escapeChar c = [c]) : c ≠ '&' ∧ c ≠ '<' ∧ c ≠ '>' := by
  refine ⟨?_, ?_, ?_⟩
  · rintro rfl
    exact absurd h (by decide)
  · rintro rfl
    exact absurd h (by decide)
  · rintro rfl
    exact absurd h (by decide)

lemma legal_escape {s : List Char} (h : Legal s) : Legal (escape s) := by
  induction s with
  | nil => exact legal_nil
  | cons c s ih =>
      obtain ⟨hc, hs⟩ := legal_cons.mp h
      rw [escape, List.flatMap_cons, legal_append]
      refine ⟨?_, ih hs⟩
      by_cases hself : escapeChar c = [c]
      · rw [hself]
        exact legal_cons.mpr ⟨hc, legal_nil⟩
      · exact legal_of_reference (escapeChar_eq_reference hself)

lemma legal_of_escape {s : List Char} (h : Legal (escape s)) : Legal s := by
  intro c hc
  by_cases hself : escapeChar c = [c]
  · exact h c (List.mem_flatMap.mpr ⟨c, hc, by rw [hself]; exact List.mem_singleton_self c⟩)
  · rw [escapeChar] at hself
    split_ifs at hself with h1 h2 h3 h4 h5
    · rw [h1]
      decide
    · rw [h2]
      decide
    · rw [h3]
      decide
    · rw [h4]
      decide
    · rw [h5]
      decide
    · exact absurd rfl hself

/-- Texts that are written with legal characters are legal. -/
lemma Forest.valid_of_legal {forest : Forest} (h : forest.With fun _ => True)
    (hlegal : Legal forest.write) : forest.Valid := by
  induction forest with
  | nil => trivial
  | leaf name text next ih =>
      simp only [Forest.write, legal_cons, legal_append] at hlegal
      exact ⟨h.1, legal_of_escape hlegal.2.2.2.1, ih h.2.2 hlegal.2.2.2.2.2⟩
  | empty name next ih =>
      simp only [Forest.write, legal_cons, legal_append] at hlegal
      exact ⟨h.1, ih h.2 hlegal.2.2.2.2⟩
  | node name attributes children next ihc ih =>
      simp only [Forest.write, legal_cons, legal_append] at hlegal
      exact ⟨h.1, h.2.1, ihc h.2.2.1 hlegal.2.2.2.2.1, ih h.2.2.2 hlegal.2.2.2.2.2.2⟩

/-- Text before which there is text already. -/
lemma content_escape_append {s : List Char} (h : Legal s) {t : List Char}
    (ht : ∀ c ∈ t, isChar c = true ∧ c ≠ '<' ∧ c ≠ '&' ∧ c ≠ '>') :
    Content (t ++ escape s) := by
  have hdata {t : List Char} (ht : ∀ c ∈ t, isChar c = true ∧ c ≠ '<' ∧ c ≠ '&' ∧ c ≠ '>') :
      CharData t :=
    ⟨fun c hc => ⟨(ht c hc).1, (ht c hc).2.1, (ht c hc).2.2.1⟩,
      fun hmarker => (ht '>' (hmarker.subset (by simp))).2.2.2 rfl⟩
  induction s generalizing t with
  | nil =>
      rw [escape, List.flatMap_nil, List.append_nil]
      exact .data (hdata ht)
  | cons c s ih =>
      obtain ⟨hc, hs⟩ := legal_cons.mp h
      rw [escape, List.flatMap_cons, ← List.append_assoc]
      by_cases hself : escapeChar c = [c]
      · obtain ⟨hamp, hlt, hgt⟩ := escapeChar_eq_self hself
        rw [hself]
        refine ih hs fun d hd => ?_
        rcases List.mem_append.mp hd with hd | hd
        · exact ht d hd
        · rw [List.mem_singleton.mp hd]
          exact ⟨hc, hlt, hamp, hgt⟩
      · exact .other (hdata ht) (.inl (escapeChar_eq_reference hself)) (ih hs (t := []) (by simp))

lemma content_escape {s : List Char} (h : Legal s) : Content (escape s) :=
  content_escape_append h (t := []) (by simp)

lemma charData_nil : CharData [] := ⟨by simp, by simp⟩

lemma attributes_write {attributes : List (List Char × List Char)}
    (h : ∀ a ∈ attributes, isName a.1 = true ∧ PlainValue a.2) :
    Attributes (attributes.map Prod.fst) (attributes.flatMap writeAttribute) := by
  induction attributes with
  | nil => exact .nil
  | cons a attributes ih =>
      obtain ⟨⟨hname, hvalue⟩, hrest⟩ := List.forall_mem_cons.mp h
      have htext : AttText (Char.ofNat 34) a.2 := by
        generalize a.2 = v at hvalue
        induction v with
        | nil => exact .nil
        | cons c v ihv =>
            obtain ⟨⟨hc, hlt, hamp, hquote, -⟩, hv⟩ := List.forall_mem_cons.mp hvalue
            exact .char hc hlt hamp hquote (ihv hv)
      have hattribute := Attributes.cons (s := [' ']) (e := ['=']) (List.cons_ne_nil _ _)
        (by simp [Spaces, isSpace]) hname ⟨[], [], by simp [Spaces], by simp [Spaces], rfl⟩
        ⟨Char.ofNat 34, by simp [quotes], a.2, htext, rfl⟩ (ih hrest)
      simpa [writeAttribute] using hattribute

lemma startTag_write {close name : List Char} {attributes : List (List Char × List Char)}
    (hname : isName name = true) (h : PlainAttributes attributes) :
    StartTag close name ('<' :: (name ++ (attributes.flatMap writeAttribute ++ close))) :=
  ⟨hname, _, _, [], attributes_write h.plain, h.nodup, by simp [Spaces], by simp⟩

lemma plainAttributes_nil : PlainAttributes [] := ⟨by simp, by simp⟩

lemma eTag_endTag (name : List Char) : ETag name (endTag name) :=
  ⟨[], by simp [Spaces], by simp [endTag]⟩

/-- Elements in a row are content. -/
lemma content_write {forest : Forest} (h : forest.Valid) : Content forest.write := by
  induction forest with
  | nil => exact .data charData_nil
  | leaf name text next ih =>
      obtain ⟨hname, htext, hnext⟩ := h
      have hcontent := Content.element charData_nil
        (startTag_write hname plainAttributes_nil) (content_escape htext)
        (eTag_endTag name) (ih hnext)
      simpa [Forest.write] using hcontent
  | empty name next ih =>
      obtain ⟨hname, hnext⟩ := h
      have hcontent := Content.empty charData_nil
        (startTag_write hname plainAttributes_nil) (ih hnext)
      simpa [Forest.write] using hcontent
  | node name attributes children next ihc ih =>
      obtain ⟨hname, hattributes, hchildren, hnext⟩ := h
      have hcontent := Content.element charData_nil
        (startTag_write hname hattributes) (ihc hchildren)
        (eTag_endTag name) (ih hnext)
      simpa [Forest.write] using hcontent

/-- The declaration of a document in UTF-8. -/
def utf8Decl : List Char :=
  "<?xml".toList ++ [("version".toList, "1.0".toList), ("encoding".toList, "utf-8".toList)].flatMap
    writeAttribute ++ ['?', '>']

lemma xmlDecl_utf8Decl : XMLDecl utf8Decl := by
  have hattribute (name : String) {value : List Char → Bool} {v : List Char}
      (h : value v = true) : DeclAttribute name value (writeAttribute (name.toList, v)) :=
    ⟨[' '], ['='], List.cons_ne_nil _ _, by simp [Spaces, isSpace],
      ⟨[], [], by simp [Spaces], by simp [Spaces], rfl⟩, Char.ofNat 34, by simp [quotes], v, h,
      by simp [writeAttribute]⟩
  refine ⟨_, _, [], [], hattribute "version" (v := "1.0".toList) (by decide),
    .inr (hattribute "encoding" (v := "utf-8".toList) (by decide)), .inl rfl, by simp [Spaces], ?_⟩
  rw [utf8Decl, List.flatMap_cons, List.flatMap_cons, List.flatMap_nil]
  simp only [List.append_assoc, List.append_nil]

/-- **What is written is a document.** -/
theorem document_write {name : List Char} {attributes : List (List Char × List Char)}
    {children : Forest} (h : (Forest.node name attributes children .nil).Valid) :
    Document (utf8Decl ++ (Forest.node name attributes children .nil).write) := by
  obtain ⟨hname, hattributes, hchildren, -⟩ := h
  refine ⟨utf8Decl, [], _, [], .inr xmlDecl_utf8Decl, .nil,
    .inr ⟨name, _, _, _, startTag_write hname hattributes,
      content_write hchildren, eTag_endTag name, rfl⟩, .nil, ?_⟩
  simp [Forest.write]

/-! ### What is written is read back -/

lemma takeName_append {name : List Char} (h : isName name = true) {c : Char}
    (hc : within nameChar c = false) (rest : List Char) :
    takeName (name ++ c :: rest) = some (name, c :: rest) := by
  have hall := nameChar_of_isName h
  have htake : (name ++ c :: rest).takeWhile (within nameChar) = name := by
    rw [List.takeWhile_append_of_pos hall, List.takeWhile_cons_of_neg (by simp [hc]),
      List.append_nil]
  have hdrop : (name ++ c :: rest).dropWhile (within nameChar) = c :: rest := by
    rw [List.dropWhile_append_of_pos hall, List.dropWhile_cons_of_neg (by simp [hc])]
  simp only [takeName, htake, hdrop, h, if_true]

lemma isSpace_of_nameStartChar {c : Char} (h : within nameStartChar c = true) :
    isSpace c = false := by
  cases hspace : isSpace c with
  | false => rfl
  | true =>
      simp only [isSpace, Bool.or_eq_true, decide_eq_true_eq] at hspace
      simp only [within, nameStartChar, List.any_cons, List.any_nil, Bool.or_false,
        Bool.or_eq_true, Bool.and_eq_true, decide_eq_true_eq] at h
      omega

/-- The first character of a name. -/
lemma isName_eq_cons {name : List Char} (h : isName name = true) :
    ∃ c s, name = c :: s ∧ within nameStartChar c = true := by
  cases name with
  | nil => cases h
  | cons c s => exact ⟨c, s, rfl, (Bool.and_eq_true_iff.mp h).1⟩

/-! #### Attributes and tags -/

lemma takeValue_plain {v : List Char} (h : PlainValue v) {n : ℕ} (hn : v.length < n)
    (rest : List Char) :
    takeValue (Char.ofNat 34) n (v ++ Char.ofNat 34 :: rest) = some (v, rest) := by
  induction v generalizing n with
  | nil =>
      obtain ⟨n, rfl⟩ : ∃ k, n = k + 1 := ⟨n - 1, by omega⟩
      rw [List.nil_append, takeValue, if_pos rfl]
  | cons c v ih =>
      obtain ⟨⟨-, hlt, hamp, hquote, hspace⟩, hv⟩ := List.forall_mem_cons.mp h
      rw [List.length_cons] at hn
      obtain ⟨n, rfl⟩ : ∃ k, n = k + 1 := ⟨n - 1, by omega⟩
      have hblank : (if isSpace c = true then ' ' else c) = c := by
        split_ifs with hc
        · exact (hspace hc).symm
        · rfl
      rw [List.cons_append, takeValue, if_neg hquote, if_neg hlt, if_neg hamp, ih hv (by omega)]
      simp only [Option.bind_eq_bind, Option.bind_some, hblank]

lemma takeAttribute_write {a : List Char × List Char} (hname : isName a.1 = true)
    (hvalue : PlainValue a.2) (rest : List Char) :
    takeAttribute (a.1 ++ '=' :: Char.ofNat 34 :: (a.2 ++ Char.ofNat 34 :: rest)) =
      some (a, rest) := by
  rw [takeAttribute, takeName_append hname (by decide)]
  simp only [Option.bind_eq_bind, Option.bind_some]
  rw [List.dropWhile_cons_of_neg (by decide)]
  simp only
  rw [List.dropWhile_cons_of_neg (by decide)]
  simp only
  rw [if_pos (by simp [quotes]),
    takeValue_plain hvalue (by rw [List.length_append, List.length_cons]; omega)]
  rfl

lemma takeAttributes_write {attributes : List (List Char × List Char)}
    (h : ∀ a ∈ attributes, isName a.1 = true ∧ PlainValue a.2) {n : ℕ}
    (hn : attributes.length ≤ n) {c : Char} (hc : isSpace c = false) (rest : List Char) :
    takeAttributes n (attributes.flatMap writeAttribute ++ c :: rest) =
      some (attributes, c :: rest) := by
  induction attributes generalizing n with
  | nil =>
      rw [List.flatMap_nil, List.nil_append]
      cases n with
      | zero => rfl
      | succ n =>
          rw [takeAttributes, List.dropWhile_cons_of_neg (by simp [hc])]
          simp [hc]
  | cons a attributes ih =>
      obtain ⟨⟨hname, hvalue⟩, hrest⟩ := List.forall_mem_cons.mp h
      rw [List.length_cons] at hn
      obtain ⟨n, rfl⟩ : ∃ k, n = k + 1 := ⟨n - 1, by omega⟩
      obtain ⟨d, s, hcons, hd⟩ := isName_eq_cons hname
      set tail := attributes.flatMap writeAttribute ++ c :: rest with htail
      have hwrite : (a :: attributes).flatMap writeAttribute ++ c :: rest =
          ' ' :: (a.1 ++ '=' :: Char.ofNat 34 :: (a.2 ++ Char.ofNat 34 :: tail)) := by
        rw [List.flatMap_cons, List.append_assoc, ← htail, writeAttribute]
        simp only [List.cons_append, List.append_assoc, List.nil_append]
      have hdrop : (' ' :: (a.1 ++ '=' :: Char.ofNat 34 ::
          (a.2 ++ Char.ofNat 34 :: tail))).dropWhile isSpace =
          a.1 ++ '=' :: Char.ofNat 34 :: (a.2 ++ Char.ofNat 34 :: tail) := by
        rw [List.dropWhile_cons_of_pos (by decide), hcons, List.cons_append,
          List.dropWhile_cons_of_neg (by simp [isSpace_of_nameStartChar hd])]
      have hhead : (a.1 ++ '=' :: Char.ofNat 34 ::
          (a.2 ++ Char.ofNat 34 :: tail)).head?.any (within nameStartChar) = true := by
        rw [hcons, List.cons_append, List.head?_cons, Option.any_some, hd]
      rw [hwrite, takeAttributes]
      simp only [hdrop]
      rw [if_pos ⟨rfl, hhead⟩, takeAttribute_write hname hvalue]
      simp only [Option.bind_eq_bind, Option.bind_some]
      rw [ih hrest (by omega)]
      rfl

lemma length_le_length_flatMap (attributes : List (List Char × List Char)) :
    attributes.length ≤ (attributes.flatMap writeAttribute).length := by
  induction attributes with
  | nil => exact le_rfl
  | cons a attributes ih =>
      rw [List.flatMap_cons, List.length_append, List.length_cons]
      have hpos : 1 ≤ (writeAttribute a).length := by simp [writeAttribute]
      omega

lemma takeName_attributes {name : List Char} (h : isName name = true)
    (attributes : List (List Char × List Char)) {c : Char} (hc : within nameChar c = false)
    (rest : List Char) :
    takeName (name ++ (attributes.flatMap writeAttribute ++ c :: rest)) =
      some (name, attributes.flatMap writeAttribute ++ c :: rest) := by
  cases attributes with
  | nil => exact takeName_append h hc rest
  | cons a attributes =>
      rw [List.flatMap_cons, writeAttribute, List.cons_append, List.cons_append]
      exact takeName_append h (by decide) _

lemma takeTag_open {name : List Char} (h : isName name = true)
    {attributes : List (List Char × List Char)} (ha : PlainAttributes attributes)
    (rest : List Char) :
    takeTag (name ++ (attributes.flatMap writeAttribute ++ '>' :: rest)) =
      some (⟨name, attributes, false⟩, rest) := by
  rw [takeTag, takeName_attributes h attributes (by decide)]
  simp only [Option.bind_eq_bind, Option.bind_some]
  have hlength := length_le_length_flatMap attributes
  rw [takeAttributes_write ha.plain (by rw [List.length_append]; omega) (by decide)]
  simp only [Option.bind_some, ha.nodup, if_true]

lemma takeTag_closed {name : List Char} (h : isName name = true) (rest : List Char) :
    takeTag (name ++ '/' :: '>' :: rest) = some (⟨name, [], true⟩, rest) := by
  have hnone : ∀ a ∈ ([] : List (List Char × List Char)), isName a.1 = true ∧ PlainValue a.2 := by
    simp
  have hattributes : takeAttributes ('/' :: '>' :: rest).length ('/' :: '>' :: rest) =
      some ([], '/' :: '>' :: rest) :=
    takeAttributes_write hnone (Nat.zero_le _) (by decide) ('>' :: rest)
  rw [takeTag, takeName_append h (by decide)]
  simp only [Option.bind_eq_bind, Option.bind_some]
  rw [hattributes]
  simp

lemma takeEnd_endTag {name : List Char} (h : isName name = true) (rest : List Char) :
    takeEnd name (endTag name ++ rest) = some rest := by
  have hwrite : endTag name ++ rest = '<' :: '/' :: (name ++ '>' :: rest) := by simp [endTag]
  rw [hwrite, takeEnd, takeName_append h (by decide)]
  simp only [Option.bind_eq_bind, Option.bind_some]
  rw [List.dropWhile_cons_of_neg (by decide)]
  simp

/-! #### Content -/

lemma takeElement_mono {f g : List Char → Option (List Item × List Char)}
    (hfg : ∀ s r, f s = some r → g s = some r) {s : List Char} {r : Item × List Char}
    (h : takeElement f s = some r) : takeElement g s = some r := by
  rw [takeElement] at h ⊢
  obtain ⟨⟨tag, rest⟩, htag, h⟩ := Option.bind_eq_some_iff.mp h
  rw [htag]
  simp only [Option.bind_eq_bind, Option.bind_some] at h ⊢
  split_ifs at h ⊢
  · exact h
  · obtain ⟨r', hr', h⟩ := Option.bind_eq_some_iff.mp h
    rw [hfg rest r' hr', Option.bind_some]
    exact h

lemma takeContent_succ {n : ℕ} {s : List Char} {r : List Item × List Char}
    (h : takeContent n s = some r) : takeContent (n + 1) s = some r := by
  induction n generalizing s r with
  | zero => cases h
  | succ n ih =>
      cases s with
      | nil => exact h
      | cons c s =>
          rw [takeContent] at h ⊢
          split_ifs at h ⊢
          · exact h
          · obtain ⟨⟨item, rest⟩, hitem, h⟩ := Option.bind_eq_some_iff.mp h
            obtain ⟨⟨items, rest'⟩, hitems, h⟩ := Option.bind_eq_some_iff.mp h
            rw [takeElement_mono (fun s r => ih) hitem]
            simp only [Option.bind_eq_bind, Option.bind_some]
            rw [ih hitems]
            exact h
          · obtain ⟨⟨d, rest⟩, hd, h⟩ := Option.bind_eq_some_iff.mp h
            obtain ⟨⟨items, rest'⟩, hitems, h⟩ := Option.bind_eq_some_iff.mp h
            rw [hd]
            simp only [Option.bind_eq_bind, Option.bind_some]
            rw [ih hitems]
            exact h
          · obtain ⟨⟨items, rest⟩, hitems, h⟩ := Option.bind_eq_some_iff.mp h
            rw [ih hitems]
            exact h

/-- More turns change nothing. -/
lemma takeContent_mono {m n : ℕ} (hmn : m ≤ n) {s : List Char} {r : List Item × List Char}
    (h : takeContent m s = some r) : takeContent n s = some r := by
  induction n, hmn using Nat.le_induction with
  | base => exact h
  | succ n _ ih => exact takeContent_succ ih

/-- A character that is escaped is read back. -/
lemma takeReference_escapeChar {c : Char} (h : escapeChar c ≠ [c]) (rest : List Char) :
    ∃ tail, escapeChar c = '&' :: tail ∧ takeReference (tail ++ rest) = some (c, rest) := by
  rw [escapeChar] at h ⊢
  split_ifs at h ⊢ with h1 h2 h3 h4 h5
  · exact ⟨"amp;".toList, rfl, by rw [h1]; rfl⟩
  · exact ⟨"lt;".toList, rfl, by rw [h2]; rfl⟩
  · exact ⟨"gt;".toList, rfl, by rw [h3]; rfl⟩
  · exact ⟨"quot;".toList, rfl, by rw [h4]; rfl⟩
  · exact ⟨"apos;".toList, rfl, by rw [h5]; rfl⟩
  · exact absurd rfl h

/-- No text begins with `>`. -/
lemma head_escape (t rest : List Char) : (escape t ++ '<' :: rest).head? ≠ some '>' := by
  cases t with
  | nil => simp [escape]
  | cons c t =>
      rw [escape, List.flatMap_cons]
      by_cases hself : escapeChar c = [c]
      · rw [hself]
        simpa using (escapeChar_eq_self hself).2.2
      · obtain ⟨tail, htail, -⟩ := takeReference_escapeChar hself []
        rw [htail]
        simp

/-- No text goes on with what ends a section of character data. -/
lemma take_escape (t rest : List Char) : (escape t ++ '<' :: rest).take 2 ≠ [']', '>'] := by
  cases t with
  | nil => simp [escape]
  | cons c t =>
      have hhead := head_escape t rest
      rw [escape, List.flatMap_cons, List.append_assoc]
      by_cases hself : escapeChar c = [c]
      · rw [hself, List.singleton_append]
        intro h
        rw [List.take_succ_cons, List.cons.injEq] at h
        rw [escape] at hhead
        cases hs : t.flatMap escapeChar ++ '<' :: rest with
        | nil => simp at hs
        | cons d s =>
            rw [hs] at h hhead
            exact hhead (by simpa using h.2)
      · obtain ⟨tail, htail, -⟩ := takeReference_escapeChar hself []
        rw [htail]
        simp

lemma takeContent_escape {t : List Char} {n : ℕ} {rest : List Char} {r : List Item × List Char}
    (h : takeContent n ('<' :: rest) = some r) :
    takeContent (n + (escape t).length) (escape t ++ '<' :: rest) =
      some (t.map .char ++ r.1, r.2) := by
  induction t with
  | nil => exact h
  | cons c t ih =>
      rw [escape, List.flatMap_cons, List.append_assoc, ← escape, List.length_append]
      by_cases hself : escapeChar c = [c]
      · obtain ⟨hamp, hlt, -⟩ := escapeChar_eq_self hself
        have hfuel : n + ((escapeChar c).length + (escape t).length) =
            n + (escape t).length + 1 := by
          rw [hself, List.length_singleton]
          omega
        rw [hfuel, hself, List.singleton_append, takeContent, if_neg hlt, if_neg hamp,
          if_neg fun hend => take_escape t rest hend.2, ih]
        rfl
      · obtain ⟨tail, htail, htake⟩ := takeReference_escapeChar hself (escape t ++ '<' :: rest)
        have hfuel : n + ((escapeChar c).length + (escape t).length) =
            n + tail.length + (escape t).length + 1 := by
          rw [htail, List.length_cons]
          omega
        rw [hfuel, htail, List.cons_append, takeContent, if_neg (by decide), if_pos rfl, htake]
        simp only [Option.bind_eq_bind, Option.bind_some]
        rw [takeContent_mono (by omega) ih]
        rfl

/-- Content ends at an end tag. -/
lemma takeContent_endTag (n : ℕ) (name rest : List Char) :
    takeContent (n + 1) (endTag name ++ rest) = some ([], endTag name ++ rest) := by
  rw [endTag, List.cons_append, List.cons_append, takeContent, if_pos rfl, List.head?_cons,
    if_pos rfl]

lemma takeElement_node {name : List Char} (h : isName name = true)
    {attributes : List (List Char × List Char)} (ha : PlainAttributes attributes)
    {f : List Char → Option (List Item × List Char)} {body rest : List Char} {items : List Item}
    (hf : f (body ++ (endTag name ++ rest)) = some (items, endTag name ++ rest)) :
    takeElement f (name ++ (attributes.flatMap writeAttribute ++
      '>' :: (body ++ (endTag name ++ rest)))) = some (.element name attributes items, rest) := by
  rw [takeElement, takeTag_open h ha]
  simp only [Option.bind_eq_bind, Option.bind_some, Bool.false_eq_true, if_false]
  rw [hf]
  simp only [Option.bind_some]
  rw [takeEnd_endTag h]
  rfl

/-- An element is read, and then what follows. -/
lemma takeContent_element {n : ℕ} {name s rest : List Char} {item : Item}
    {r : List Item × List Char} (h : isName name = true)
    (hitem : takeElement (takeContent n) (name ++ s) = some (item, rest))
    (hr : takeContent n rest = some r) :
    takeContent (n + 1) ('<' :: (name ++ s)) = some (item :: r.1, r.2) := by
  obtain ⟨c, tail, hcons, hc⟩ := isName_eq_cons h
  have hhead : (name ++ s).head? ≠ some '/' := by
    rw [hcons, List.cons_append, List.head?_cons]
    rintro ⟨⟩
    exact absurd hc (by decide)
  rw [takeContent, if_pos rfl, if_neg hhead, hitem]
  simp only [Option.bind_eq_bind, Option.bind_some]
  rw [hr]
  rfl

/-- **Elements in a row are read as they are.** -/
lemma takeContent_write {forest : Forest} (h : forest.Valid) {n : ℕ} {rest : List Char}
    {r : List Item × List Char} (hr : takeContent n rest = some r) :
    takeContent (n + forest.write.length) (forest.write ++ rest) =
      some (forest.items ++ r.1, r.2) := by
  induction forest generalizing n rest r with
  | nil => exact hr
  | leaf name text next ih =>
      obtain ⟨hname, -, hnext⟩ := h
      have hrest := ih hnext hr
      set m := n + next.write.length with hm
      have hbody : takeContent (1 + (escape text).length)
          (escape text ++ (endTag name ++ (next.write ++ rest))) =
            some (text.map .char, endTag name ++ (next.write ++ rest)) := by
        have hend := takeContent_escape (t := text)
          (takeContent_endTag 0 name (next.write ++ rest))
        rwa [List.append_nil] at hend
      have hfuel : n + (Forest.leaf name text next).write.length =
          m + (name.length + 1 + (escape text).length + (endTag name).length) + 1 := by
        simp only [Forest.write, List.length_cons, List.length_append]
        omega
      have helement := takeElement_node hname plainAttributes_nil
        (takeContent_mono (n := m + (name.length + 1 + (escape text).length +
          (endTag name).length)) (by omega) hbody)
      have hwrite : (Forest.leaf name text next).write ++ rest =
          '<' :: (name ++ ('>' :: (escape text ++ (endTag name ++ (next.write ++ rest))))) := by
        simp only [Forest.write, List.cons_append, List.append_assoc]
      rw [hfuel, hwrite]
      exact takeContent_element hname helement (takeContent_mono (by omega) hrest)
  | empty name next ih =>
      obtain ⟨hname, hnext⟩ := h
      have hrest := ih hnext hr
      set m := n + next.write.length with hm
      have hfuel : n + (Forest.empty name next).write.length = m + (name.length + 2) + 1 := by
        simp only [Forest.write, List.length_cons, List.length_append]
        omega
      have hwrite : (Forest.empty name next).write ++ rest =
          '<' :: (name ++ ('/' :: '>' :: (next.write ++ rest))) := by
        simp only [Forest.write, List.cons_append, List.append_assoc]
      have helement : takeElement (takeContent (m + (name.length + 2)))
          (name ++ ('/' :: '>' :: (next.write ++ rest))) =
            some (.element name [] [], next.write ++ rest) := by
        rw [takeElement, takeTag_closed hname]
        rfl
      rw [hfuel, hwrite]
      exact takeContent_element hname helement (takeContent_mono (by omega) hrest)
  | node name attributes children next ihc ih =>
      obtain ⟨hname, hattributes, hchildren, hnext⟩ := h
      have hrest := ih hnext hr
      have hbody := ihc hchildren (takeContent_endTag 0 name (next.write ++ rest))
      rw [List.append_nil] at hbody
      set m := n + next.write.length with hm
      set k := name.length + (attributes.flatMap writeAttribute).length + children.write.length +
        (endTag name).length with hk
      have hfuel : n + (Forest.node name attributes children next).write.length =
          m + (k + 1) + 1 := by
        simp only [Forest.write, List.length_cons, List.length_append]
        omega
      have hwrite : (Forest.node name attributes children next).write ++ rest =
          '<' :: (name ++ (attributes.flatMap writeAttribute ++
            '>' :: (children.write ++ (endTag name ++ (next.write ++ rest))))) := by
        simp only [Forest.write, List.cons_append, List.append_assoc]
      have helement := takeElement_node hname hattributes
        (takeContent_mono (n := m + (k + 1)) (by omega) hbody)
      rw [hfuel, hwrite]
      exact takeContent_element hname helement (takeContent_mono (by omega) hrest)

/-! #### Line ends -/

/-- A character that is no line end. -/
def Inner (c : Char) : Prop := c.toNat ≠ 13 ∧ c.toNat ≠ 10

instance (c : Char) : Decidable (Inner c) :=
  inferInstanceAs (Decidable (c.toNat ≠ 13 ∧ c.toNat ≠ 10))

lemma inner_of_all {s : List Char} (h : s.all (fun c => decide (Inner c)) = true) :
    ∀ c ∈ s, Inner c := by
  simpa using h

lemma normalizeFrom_inner {c : Char} (h : Inner c) (cr : Bool) (s : List Char) :
    normalizeFrom cr (c :: s) = c :: normalizeFrom false s := by
  rw [normalizeFrom, if_neg h.1, if_neg fun hlf => h.2 hlf.1]

lemma normalizeFrom_append_inner {s : List Char} (h : ∀ c ∈ s, Inner c) (t : List Char) :
    normalizeFrom false (s ++ t) = s ++ normalizeFrom false t := by
  induction s with
  | nil => rfl
  | cons c s ih =>
      obtain ⟨hc, hs⟩ := List.forall_mem_cons.mp h
      rw [List.cons_append, normalizeFrom_inner hc, ih hs, List.cons_append]

/-- Nothing is joined across a character that is no line end. -/
lemma normalizeFrom_append {c : Char} (h : Inner c) (cr : Bool) (s t : List Char) :
    normalizeFrom cr (s ++ c :: t) = normalizeFrom cr s ++ c :: normalizeFrom false t := by
  induction s generalizing cr with
  | nil => exact normalizeFrom_inner h cr t
  | cons d s ih =>
      rw [List.cons_append, normalizeFrom, normalizeFrom]
      split_ifs
      · rw [ih, List.cons_append]
      · exact ih false
      · rw [ih, List.cons_append]

lemma normalizeFrom_escape (cr : Bool) (s : List Char) :
    normalizeFrom cr (escape s) = escape (normalizeFrom cr s) := by
  have hline {c : Char} (h : ¬ Inner c) : escapeChar c = [c] := by
    rw [escapeChar]
    split_ifs with h1 h2 h3 h4 h5
    · exact absurd (h1 ▸ by decide) h
    · exact absurd (h2 ▸ by decide) h
    · exact absurd (h3 ▸ by decide) h
    · exact absurd (h4 ▸ by decide) h
    · exact absurd (h5 ▸ by decide) h
    · rfl
  have hinner {c : Char} (h : Inner c) : ∃ d tail, escapeChar c = d :: tail ∧
      ∀ x ∈ escapeChar c, Inner x := by
    rw [escapeChar]
    split_ifs
    iterate 5 exact ⟨_, _, rfl, inner_of_all (by decide)⟩
    exact ⟨c, [], rfl, by simpa using h⟩
  induction s generalizing cr with
  | nil => rfl
  | cons c s ih =>
      have hescape (s : List Char) : escape (c :: s) = escapeChar c ++ escape s := rfl
      by_cases hc : Inner c
      · obtain ⟨d, tail, htail, hall⟩ := hinner hc
        rw [normalizeFrom_inner hc, hescape, hescape, ← ih]
        rw [htail] at hall ⊢
        obtain ⟨hd, hrest⟩ := List.forall_mem_cons.mp hall
        rw [List.cons_append, normalizeFrom_inner hd, normalizeFrom_append_inner hrest,
          List.cons_append]
      · rw [hescape, hline hc, List.singleton_append, normalizeFrom, normalizeFrom]
        split_ifs
        · rw [ih]
          rfl
        · exact ih false
        · rw [ih, hescape, hline hc, List.singleton_append]

/-- No carriage return is left. -/
lemma normalizeFrom_noReturn (cr : Bool) (s : List Char) :
    ∀ c ∈ normalizeFrom cr s, c.toNat ≠ 13 := by
  induction s generalizing cr with
  | nil => simp [normalizeFrom]
  | cons c s ih =>
      rw [normalizeFrom]
      split_ifs with hcr
      · exact List.forall_mem_cons.mpr ⟨by decide, ih true⟩
      · exact ih false
      · exact List.forall_mem_cons.mpr ⟨hcr, ih false⟩

/-- A text without carriage returns stays. -/
lemma normalizeLines_eq_self {s : List Char} (h : ∀ c ∈ s, c.toNat ≠ 13) :
    normalizeLines s = s := by
  rw [normalizeLines]
  induction s with
  | nil => rfl
  | cons c s ih =>
      obtain ⟨hc, hs⟩ := List.forall_mem_cons.mp h
      rw [normalizeFrom, if_neg hc, if_neg (by simp), ih hs]

lemma inner_of_nameChar {c : Char} (h : within nameChar c = true) : Inner c := by
  constructor
  · intro hc
    rw [within] at h
    simp only [hc] at h
    exact absurd h (by decide)
  · intro hc
    rw [within] at h
    simp only [hc] at h
    exact absurd h (by decide)

lemma inner_of_isName {name : List Char} (h : isName name = true) : ∀ c ∈ name, Inner c :=
  fun c hc => inner_of_nameChar (nameChar_of_isName h c hc)

lemma inner_endTag {name : List Char} (h : isName name = true) : ∀ c ∈ endTag name, Inner c := by
  intro c hc
  simp only [endTag, List.mem_cons, List.mem_append, List.not_mem_nil, or_false] at hc
  rcases hc with rfl | rfl | hc | rfl
  · decide
  · decide
  · exact inner_of_isName h c hc
  · decide

lemma inner_attributes {attributes : List (List Char × List Char)}
    (h : PlainAttributes attributes) :
    ∀ c ∈ attributes.flatMap writeAttribute, Inner c := by
  intro c hc
  obtain ⟨a, ha, hc⟩ := List.mem_flatMap.mp hc
  obtain ⟨hname, hvalue⟩ := h.plain a ha
  simp only [writeAttribute, List.mem_cons, List.mem_append, List.not_mem_nil, or_false] at hc
  rcases hc with rfl | hc | rfl | rfl | hc | rfl
  · decide
  · exact inner_of_isName hname c hc
  · decide
  · decide
  · obtain ⟨-, -, -, -, hspace⟩ := hvalue c hc
    have hline (hspace' : isSpace c = true) : Inner c := by
      rw [hspace hspace']
      decide
    constructor
    · intro h13
      exact (hline (by simp [isSpace, h13])).1 h13
    · intro h10
      exact (hline (by simp [isSpace, h10])).2 h10
  · decide

/-- The line ends of a document are those of its texts. -/
lemma normalizeFrom_write {forest : Forest} (h : forest.Valid) (rest : List Char) :
    normalizeFrom false (forest.write ++ rest) =
      forest.normalize.write ++ normalizeFrom false rest := by
  have hlt : Inner '<' := by decide
  have hgt : Inner '>' := by decide
  have hslash : Inner '/' := by decide
  induction forest generalizing rest with
  | nil => rfl
  | leaf name text next ih =>
      obtain ⟨hname, -, hnext⟩ := h
      simp only [Forest.write, Forest.normalize, List.cons_append, List.append_assoc]
      rw [normalizeFrom_inner hlt, normalizeFrom_append_inner (inner_of_isName hname),
        normalizeFrom_inner hgt]
      have htext : normalizeFrom false (escape text ++ (endTag name ++ (next.write ++ rest))) =
          escape (normalizeLines text) ++ (endTag name ++ (next.normalize.write ++
            normalizeFrom false rest)) := by
        rw [← ih hnext rest, ← normalizeFrom_append_inner (inner_endTag hname), endTag,
          List.cons_append, normalizeFrom_append hlt, normalizeFrom_escape,
          normalizeFrom_inner hlt]
        rfl
      rw [htext]
  | empty name next ih =>
      obtain ⟨hname, hnext⟩ := h
      simp only [Forest.write, Forest.normalize, List.cons_append, List.append_assoc]
      rw [normalizeFrom_inner hlt, normalizeFrom_append_inner (inner_of_isName hname),
        normalizeFrom_inner hslash, normalizeFrom_inner hgt, ih hnext]
  | node name attributes children next ihc ih =>
      obtain ⟨hname, hattributes, hchildren, hnext⟩ := h
      simp only [Forest.write, Forest.normalize, List.cons_append, List.append_assoc]
      rw [normalizeFrom_inner hlt, normalizeFrom_append_inner (inner_of_isName hname),
        normalizeFrom_append_inner (inner_attributes hattributes), normalizeFrom_inner hgt,
        ihc hchildren, normalizeFrom_append_inner (inner_endTag hname), ih hnext]

lemma legal_normalizeLines {s : List Char} (h : Legal s) : Legal (normalizeLines s) := by
  have hfrom : ∀ cr, Legal (normalizeFrom cr s) := by
    induction s with
    | nil => exact fun cr => legal_nil
    | cons c s ih =>
        intro cr
        obtain ⟨hc, hs⟩ := legal_cons.mp h
        rw [normalizeFrom]
        split_ifs
        · exact legal_cons.mpr ⟨by decide, ih hs true⟩
        · exact ih hs false
        · exact legal_cons.mpr ⟨hc, ih hs false⟩
  exact hfrom false

lemma Forest.Valid.normalize {forest : Forest} (h : forest.Valid) : forest.normalize.Valid := by
  induction forest with
  | nil => trivial
  | leaf name text next ih => exact ⟨h.1, legal_normalizeLines h.2.1, ih h.2.2⟩
  | empty name next ih => exact ⟨h.1, ih h.2⟩
  | node name attributes children next ihc ih => exact ⟨h.1, h.2.1, ihc h.2.2.1, ih h.2.2.2⟩

/-! #### Documents -/

/-- The attributes of the declaration. -/
def utf8Attributes : List (List Char × List Char) :=
  [("version".toList, "1.0".toList), ("encoding".toList, "utf-8".toList)]

lemma takeDecl_utf8Decl (rest : List Char) : takeDecl (utf8Decl ++ rest) = some rest := by
  have hplain : ∀ a ∈ utf8Attributes, isName a.1 = true ∧ PlainValue a.2 := by
    simp only [utf8Attributes, List.forall_mem_cons]
    decide
  have hwrite : utf8Decl ++ rest =
      "<?xml".toList ++ (utf8Attributes.flatMap writeAttribute ++ '?' :: '>' :: rest) := by
    rw [utf8Decl, utf8Attributes]
    simp only [List.append_assoc, List.cons_append, List.nil_append]
  have hdrop : (utf8Decl ++ rest).drop 5 =
      utf8Attributes.flatMap writeAttribute ++ '?' :: '>' :: rest := by
    rw [hwrite]
    exact List.drop_left' rfl
  have hlength : utf8Attributes.length ≤ (utf8Decl ++ rest).length := by
    rw [List.length_append]
    exact le_trans (by decide : utf8Attributes.length ≤ utf8Decl.length) (Nat.le_add_right _ _)
  have hprefix : "<?xml".toList.isPrefixOf (utf8Decl ++ rest) = true := by
    rw [hwrite]
    exact List.isPrefixOf_iff_prefix.mpr (List.prefix_append _ _)
  rw [takeDecl, if_pos hprefix, hdrop, takeAttributes_write hplain hlength (by decide)]
  simp only [Option.bind_eq_bind, Option.bind_some]
  exact if_pos (by decide)

/-- **What is written is read back**, with line feeds for line ends. -/
theorem read_write {name : List Char} {attributes : List (List Char × List Char)}
    {children : Forest} (h : (Forest.node name attributes children .nil).Valid) :
    read (utf8Decl ++ (Forest.node name attributes children .nil).write) =
      some (.element name attributes children.normalize.items) := by
  have hlegal := legal_of_document (document_write h)
  have hnormal := normalizeFrom_write h []
  obtain ⟨hname, hattributes, hchildren, -⟩ := h
  have hlines : normalizeLines (utf8Decl ++ (Forest.node name attributes children .nil).write) =
      utf8Decl ++ (Forest.node name attributes children.normalize .nil).write := by
    rw [normalizeLines, normalizeFrom_append_inner (inner_of_all (by decide))]
    rw [List.append_nil] at hnormal
    rw [hnormal]
    exact congrArg (utf8Decl ++ ·) (List.append_nil _)
  have hbody : takeContent (0 + 1 + children.normalize.write.length)
      (children.normalize.write ++ (endTag name ++ [])) =
        some (children.normalize.items, endTag name ++ []) := by
    have hend := takeContent_write (Forest.Valid.normalize hchildren) (takeContent_endTag 0 name [])
    rwa [List.append_nil children.normalize.items] at hend
  rw [read, if_pos (List.all_eq_true.mpr hlegal), hlines, takeDecl_utf8Decl]
  simp only [Option.bind_eq_bind, Option.bind_some, Forest.write]
  rw [List.dropWhile_cons_of_neg (by decide)]
  simp only
  rw [takeElement_node hname hattributes (takeContent_mono _ hbody)]
  · rfl
  · simp only [List.length_append, List.length_cons]
    omega

end Xml
