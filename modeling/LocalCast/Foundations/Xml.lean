import Mathlib.Data.List.Infix
import Mathlib.Data.String.Basic

/-!
The grammar of XML 1.0 documents without a document type declaration. A document is the list of
its characters.

* `isChar`, `isName`, `reference`: the characters, the names and the references.
* `CharData`, `Content`, `Element`, `Document`: the productions of the recommendation, with the
  constraints that make a document well-formed.
* `legal_of_document`: no character of a document is outside `Char`.
-/

namespace Xml

/-! ### Characters and names -/

/-- `Char`. -/
def isChar (c : Char) : Bool :=
  c.toNat = 9 || c.toNat = 10 || c.toNat = 13 || (0x20 ≤ c.toNat && c.toNat ≤ 0xD7FF) ||
    (0xE000 ≤ c.toNat && c.toNat ≤ 0xFFFD) || 0x10000 ≤ c.toNat

/-- `S`, one character of it. -/
def isSpace (c : Char) : Bool :=
  c.toNat = 32 || c.toNat = 9 || c.toNat = 13 || c.toNat = 10

def within (ranges : List (ℕ × ℕ)) (c : Char) : Bool :=
  ranges.any fun r => r.1 ≤ c.toNat && c.toNat ≤ r.2

/-- `NameStartChar`. -/
def nameStartChar : List (ℕ × ℕ) :=
  [ (0x3A, 0x3A), (0x41, 0x5A), (0x5F, 0x5F), (0x61, 0x7A), (0xC0, 0xD6), (0xD8, 0xF6),
    (0xF8, 0x2FF), (0x370, 0x37D), (0x37F, 0x1FFF), (0x200C, 0x200D), (0x2070, 0x218F),
    (0x2C00, 0x2FEF), (0x3001, 0xD7FF), (0xF900, 0xFDCF), (0xFDF0, 0xFFFD), (0x10000, 0xEFFFF) ]

/-- `NameChar`. -/
def nameChar : List (ℕ × ℕ) :=
  nameStartChar ++
    [(0x2D, 0x2E), (0x30, 0x39), (0xB7, 0xB7), (0x300, 0x36F), (0x203F, 0x2040)]

/-- `Name`. -/
def isName : List Char → Bool
  | [] => false
  | c :: s => within nameStartChar c && s.all (within nameChar)

/-- All characters of the text may be in a document. -/
def Legal (s : List Char) : Prop := ∀ c ∈ s, isChar c = true

instance (s : List Char) : Decidable (Legal s) :=
  decidable_of_iff (s.all isChar = true) List.all_eq_true

@[simp] lemma legal_nil : Legal [] := by simp [Legal]

@[simp] lemma legal_cons {c : Char} {s : List Char} :
    Legal (c :: s) ↔ isChar c = true ∧ Legal s := List.forall_mem_cons

@[simp] lemma legal_append {s t : List Char} : Legal (s ++ t) ↔ Legal s ∧ Legal t :=
  List.forall_mem_append

/-- Ranges of `Char` have nothing but its characters. -/
lemma isChar_of_within {ranges : List (ℕ × ℕ)}
    (hranges : ∀ r ∈ ranges, (0x20 ≤ r.1 ∧ r.2 ≤ 0xD7FF) ∨ (0xE000 ≤ r.1 ∧ r.2 ≤ 0xFFFD) ∨
      0x10000 ≤ r.1) {c : Char} (h : within ranges c = true) : isChar c = true := by
  obtain ⟨r, hr, hc⟩ := List.any_eq_true.mp h
  have hrange := hranges r hr
  simp only [Bool.and_eq_true, decide_eq_true_eq] at hc
  simp only [isChar, Bool.or_eq_true, Bool.and_eq_true, decide_eq_true_eq]
  omega

lemma isChar_of_nameChar {c : Char} (h : within nameChar c = true) : isChar c = true :=
  isChar_of_within (by decide) h

lemma nameChar_of_nameStartChar {c : Char} (h : within nameStartChar c = true) :
    within nameChar c = true := by
  rw [within, nameChar, List.any_append, Bool.or_eq_true]
  exact .inl h

lemma nameChar_of_isName {name : List Char} (h : isName name = true) :
    ∀ c ∈ name, within nameChar c = true := by
  cases name with
  | nil => simp
  | cons c s =>
      rw [isName, Bool.and_eq_true, List.all_eq_true] at h
      exact List.forall_mem_cons.mpr ⟨nameChar_of_nameStartChar h.1, h.2⟩

lemma legal_of_isName {name : List Char} (h : isName name = true) : Legal name :=
  fun c hc => isChar_of_nameChar (nameChar_of_isName h c hc)

lemma isChar_of_isSpace {c : Char} (h : isSpace c = true) : isChar c = true := by
  simp only [isSpace, Bool.or_eq_true, decide_eq_true_eq] at h
  simp only [isChar, Bool.or_eq_true, Bool.and_eq_true, decide_eq_true_eq]
  omega

/-! ### References -/

/-- The entities that need no declaration. -/
def entities : List (List Char × Char) :=
  [ ("amp".toList, '&'), ("lt".toList, '<'), ("gt".toList, '>'), ("quot".toList, Char.ofNat 34),
    ("apos".toList, Char.ofNat 39) ]

def decimalDigit : List (ℕ × ℕ) := [(0x30, 0x39)]

def hexDigit : List (ℕ × ℕ) := [(0x30, 0x39), (0x41, 0x46), (0x61, 0x66)]

def digitValue (c : Char) : ℕ :=
  if c.toNat ≤ 57 then c.toNat - 48 else if c.toNat ≤ 70 then c.toNat - 55 else c.toNat - 87

/-- The character of `CharRef`, one that may be in a document. -/
def charRef (base : ℕ) (digit : List (ℕ × ℕ)) (digits : List Char) : Option Char :=
  let v := digits.foldl (fun v c => base * v + digitValue c) 0
  if digits ≠ [] ∧ digits.all (within digit) ∧ isChar (Char.ofNat v) then some (Char.ofNat v)
  else none

/-- What stands between `&` and `;`. -/
def reference : List Char → Option Char
  | '#' :: 'x' :: digits => charRef 16 hexDigit digits
  | '#' :: digits => charRef 10 decimalDigit digits
  | name => entities.lookup name

/-- `Reference`. -/
def Reference (x : List Char) : Prop :=
  ∃ body c, reference body = some c ∧ x = '&' :: (body ++ [';'])

lemma legal_of_charRef {base : ℕ} {digit : List (ℕ × ℕ)} {digits : List Char} {c : Char}
    (hdigit : ∀ r ∈ digit, 0x20 ≤ r.1 ∧ r.2 ≤ 0xD7FF)
    (h : charRef base digit digits = some c) : Legal digits := by
  rw [charRef] at h
  split_ifs at h with hdigits
  exact fun d hd => isChar_of_within (fun r hr => .inl (hdigit r hr))
    (List.all_eq_true.mp hdigits.2.1 d hd)

lemma legal_of_reference {x : List Char} (h : Reference x) : Legal x := by
  obtain ⟨body, c, hbody, rfl⟩ := h
  have hlegal : Legal body := by
    unfold reference at hbody
    split at hbody
    · exact legal_cons.mpr
        ⟨by decide, legal_cons.mpr ⟨by decide, legal_of_charRef (by decide) hbody⟩⟩
    · exact legal_cons.mpr ⟨by decide, legal_of_charRef (by decide) hbody⟩
    · have hall : ∀ entity ∈ entities, entity.1.all isChar = true := by decide
      obtain ⟨l₁, l₂, hentities, -⟩ := List.lookup_eq_some_iff.mp hbody
      have hmem := hall (body, c) (by rw [hentities]; simp)
      exact List.all_eq_true.mp hmem
  simp only [legal_cons, legal_append]
  exact ⟨by decide, hlegal, by decide, legal_nil⟩

/-! ### The grammar -/

/-- `CharData`. -/
def CharData (s : List Char) : Prop :=
  (∀ c ∈ s, isChar c = true ∧ c ≠ '<' ∧ c ≠ '&') ∧ ¬ [']', ']', '>'] <:+: s

def quotes : List Char := [Char.ofNat 34, Char.ofNat 39]

/-- What stands between the quotes of `AttValue`. -/
inductive AttText (q : Char) : List Char → Prop
  | nil : AttText q []
  | char {c : Char} {s : List Char} : isChar c = true → c ≠ '<' → c ≠ '&' → c ≠ q →
      AttText q s → AttText q (c :: s)
  | reference {x s : List Char} : Reference x → AttText q s → AttText q (x ++ s)

/-- `AttValue`. -/
def AttValue (v : List Char) : Prop := ∃ q ∈ quotes, ∃ s, AttText q s ∧ v = q :: (s ++ [q])

/-- `S?`. -/
def Spaces (s : List Char) : Prop := ∀ c ∈ s, isSpace c = true

/-- `Eq`. -/
def Equals (e : List Char) : Prop := ∃ a b, Spaces a ∧ Spaces b ∧ e = a ++ '=' :: b

/-- `(S Attribute)*`, with the names. -/
inductive Attributes : List (List Char) → List Char → Prop
  | nil : Attributes [] []
  | cons {names : List (List Char)} {s name e v rest : List Char} : s ≠ [] → Spaces s →
      isName name = true → Equals e → AttValue v → Attributes names rest →
      Attributes (name :: names) (s ++ name ++ e ++ v ++ rest)

/-- A tag that begins an element and ends with `close`; no attribute is in it twice. -/
def StartTag (close name x : List Char) : Prop :=
  isName name = true ∧ ∃ names a s, Attributes names a ∧ names.Nodup ∧ Spaces s ∧
    x = '<' :: (name ++ a ++ s ++ close)

/-- `STag`. -/
def STag : List Char → List Char → Prop := StartTag ['>']

/-- `EmptyElemTag`. -/
def EmptyElemTag : List Char → List Char → Prop := StartTag ['/', '>']

/-- `ETag`. -/
def ETag (name x : List Char) : Prop :=
  ∃ s, Spaces s ∧ x = '<' :: '/' :: (name ++ s ++ ['>'])

/-- `Comment`. -/
def Comment (x : List Char) : Prop :=
  ∃ s, Legal s ∧ ¬ ['-', '-'] <:+: s ∧ s.getLast? ≠ some '-' ∧
    x = ['<', '!', '-', '-'] ++ s ++ ['-', '-', '>']

/-- `PI`. -/
def PI (x : List Char) : Prop :=
  ∃ target s, isName target = true ∧ target.map Char.toLower ≠ "xml".toList ∧ Legal s ∧
    (∀ c ∈ s.head?, isSpace c = true) ∧ ¬ ['?', '>'] <:+: s ∧
    x = ['<', '?'] ++ target ++ s ++ ['?', '>']

/-- `CDSect`. -/
def CDSect (x : List Char) : Prop :=
  ∃ s, Legal s ∧ ¬ [']', ']', '>'] <:+: s ∧ x = "<![CDATA[".toList ++ s ++ [']', ']', '>']

/-- `content`; the name of an end tag is that of its start tag. -/
inductive Content : List Char → Prop
  | data {t : List Char} : CharData t → Content t
  | empty {t name x s : List Char} : CharData t → EmptyElemTag name x → Content s →
      Content (t ++ x ++ s)
  | element {t name a c b s : List Char} : CharData t → STag name a → Content c → ETag name b →
      Content s → Content (t ++ (a ++ c ++ b) ++ s)
  | other {t x s : List Char} : CharData t → (Reference x ∨ Comment x ∨ PI x ∨ CDSect x) →
      Content s → Content (t ++ x ++ s)

/-- `element`. -/
def Element (x : List Char) : Prop :=
  (∃ name, EmptyElemTag name x) ∨
    ∃ name a c b, STag name a ∧ Content c ∧ ETag name b ∧ x = a ++ c ++ b

/-- `Misc*`. -/
inductive Misc : List Char → Prop
  | nil : Misc []
  | space {c : Char} {s : List Char} : isSpace c = true → Misc s → Misc (c :: s)
  | other {x s : List Char} : Comment x ∨ PI x → Misc s → Misc (x ++ s)

/-- `VersionNum`. -/
def isVersionNum : List Char → Bool
  | '1' :: '.' :: digits => digits ≠ [] && digits.all (within decimalDigit)
  | _ => false

/-- `EncName`. -/
def isEncName : List Char → Bool
  | [] => false
  | c :: s => within [(0x41, 0x5A), (0x61, 0x7A)] c &&
      s.all (within [(0x2D, 0x2E), (0x30, 0x39), (0x41, 0x5A), (0x5F, 0x5F), (0x61, 0x7A)])

/-- An attribute of the declaration. -/
def DeclAttribute (name : String) (value : List Char → Bool) (x : List Char) : Prop :=
  ∃ s e, s ≠ [] ∧ Spaces s ∧ Equals e ∧ ∃ q ∈ quotes, ∃ v, value v = true ∧
    x = s ++ name.toList ++ e ++ q :: (v ++ [q])

/-- `XMLDecl`. -/
def XMLDecl (x : List Char) : Prop :=
  ∃ v e d s, DeclAttribute "version" isVersionNum v ∧
    (e = [] ∨ DeclAttribute "encoding" isEncName e) ∧
    (d = [] ∨ DeclAttribute "standalone" (fun w => w = "yes".toList || w = "no".toList) d) ∧
    Spaces s ∧ x = "<?xml".toList ++ v ++ e ++ d ++ s ++ ['?', '>']

/-- `document`, without a `doctypedecl`. -/
def Document (s : List Char) : Prop :=
  ∃ decl m x m', (decl = [] ∨ XMLDecl decl) ∧ Misc m ∧ Element x ∧ Misc m' ∧
    s = decl ++ m ++ x ++ m'

/-! ### The characters of a document -/

lemma Spaces.legal {s : List Char} (h : Spaces s) : Legal s :=
  fun c hc => isChar_of_isSpace (h c hc)

lemma Equals.legal {e : List Char} (h : Equals e) : Legal e := by
  obtain ⟨a, b, ha, hb, rfl⟩ := h
  simp only [legal_append, legal_cons]
  exact ⟨ha.legal, by decide, hb.legal⟩

lemma isChar_of_mem_quotes {q : Char} (h : q ∈ quotes) : isChar q = true :=
  (by decide : Legal quotes) q h

lemma AttValue.legal {v : List Char} (h : AttValue v) : Legal v := by
  obtain ⟨q, hq, s, hs, rfl⟩ := h
  have hlegal : Legal s := by
    induction hs with
    | nil => exact legal_nil
    | char hc _ _ _ _ ih => exact legal_cons.mpr ⟨hc, ih⟩
    | reference hx _ ih => exact legal_append.mpr ⟨legal_of_reference hx, ih⟩
  simp only [legal_cons, legal_append]
  exact ⟨isChar_of_mem_quotes hq, hlegal, isChar_of_mem_quotes hq, legal_nil⟩

lemma StartTag.legal {close name x : List Char} (hclose : Legal close)
    (h : StartTag close name x) : Legal x := by
  obtain ⟨hname, names, a, s, ha, -, hs, rfl⟩ := h
  have hlegal : Legal a := by
    induction ha with
    | nil => exact legal_nil
    | cons _ hspaces hname he hv _ ih =>
        simp only [legal_append]
        exact ⟨⟨⟨⟨hspaces.legal, legal_of_isName hname⟩, he.legal⟩, hv.legal⟩, ih⟩
  simp only [legal_cons, legal_append]
  exact ⟨by decide, ⟨⟨legal_of_isName hname, hlegal⟩, hs.legal⟩, hclose⟩

lemma Comment.legal {x : List Char} (h : Comment x) : Legal x := by
  obtain ⟨s, hs, -, -, rfl⟩ := h
  simp only [legal_append]
  exact ⟨⟨by decide, hs⟩, by decide⟩

lemma PI.legal {x : List Char} (h : PI x) : Legal x := by
  obtain ⟨target, s, htarget, -, hs, -, -, rfl⟩ := h
  simp only [legal_append]
  exact ⟨⟨⟨by decide, legal_of_isName htarget⟩, hs⟩, by decide⟩

lemma CDSect.legal {x : List Char} (h : CDSect x) : Legal x := by
  obtain ⟨s, hs, -, rfl⟩ := h
  simp only [legal_append]
  exact ⟨⟨by decide, hs⟩, by decide⟩

lemma ETag.legal {name x : List Char} (hname : isName name = true) (h : ETag name x) :
    Legal x := by
  obtain ⟨s, hs, rfl⟩ := h
  simp only [legal_cons, legal_append]
  exact ⟨by decide, by decide, ⟨legal_of_isName hname, hs.legal⟩, by decide, legal_nil⟩

lemma CharData.legal {t : List Char} (h : CharData t) : Legal t := fun c hc => (h.1 c hc).1

lemma Content.legal {s : List Char} (h : Content s) : Legal s := by
  induction h with
  | data ht => exact ht.legal
  | empty ht hx _ ih =>
      simp only [legal_append]
      exact ⟨⟨ht.legal, hx.legal (by decide)⟩, ih⟩
  | element ht ha _ hb _ ih ih' =>
      simp only [legal_append]
      exact ⟨⟨ht.legal, ⟨ha.legal (by decide), ih⟩, hb.legal ha.1⟩, ih'⟩
  | @other t x s ht hx _ ih =>
      have hlegal : Legal x := by
        rcases hx with hx | hx | hx | hx
        · exact legal_of_reference hx
        · exact hx.legal
        · exact hx.legal
        · exact hx.legal
      simp only [legal_append]
      exact ⟨⟨ht.legal, hlegal⟩, ih⟩

lemma Element.legal {x : List Char} (h : Element x) : Legal x := by
  rcases h with ⟨name, hx⟩ | ⟨name, a, c, b, ha, hc, hb, rfl⟩
  · exact hx.legal (by decide)
  · simp only [legal_append]
    exact ⟨⟨ha.legal (by decide), hc.legal⟩, hb.legal ha.1⟩

lemma Misc.legal {s : List Char} (h : Misc s) : Legal s := by
  induction h with
  | nil => exact legal_nil
  | space hc _ ih => exact legal_cons.mpr ⟨isChar_of_isSpace hc, ih⟩
  | other hx _ ih => exact legal_append.mpr ⟨hx.elim Comment.legal PI.legal, ih⟩

lemma DeclAttribute.legal {name : String} {value : List Char → Bool} {x : List Char}
    (hname : Legal name.toList) (hvalue : ∀ v, value v = true → Legal v)
    (h : DeclAttribute name value x) : Legal x := by
  obtain ⟨s, e, -, hs, he, q, hq, v, hv, rfl⟩ := h
  simp only [legal_cons, legal_append]
  exact ⟨⟨⟨hs.legal, hname⟩, he.legal⟩, isChar_of_mem_quotes hq, hvalue v hv,
    isChar_of_mem_quotes hq, legal_nil⟩

lemma legal_of_isVersionNum {v : List Char} (h : isVersionNum v = true) : Legal v := by
  unfold isVersionNum at h
  split at h
  · rw [Bool.and_eq_true, List.all_eq_true] at h
    refine legal_cons.mpr ⟨by decide, legal_cons.mpr ⟨by decide, fun c hc => ?_⟩⟩
    exact isChar_of_within (by decide) (h.2 c hc)
  · cases h

lemma legal_of_isEncName {v : List Char} (h : isEncName v = true) : Legal v := by
  cases v with
  | nil => exact legal_nil
  | cons c s =>
      rw [isEncName, Bool.and_eq_true, List.all_eq_true] at h
      exact legal_cons.mpr ⟨isChar_of_within (by decide) h.1,
        fun d hd => isChar_of_within (by decide) (h.2 d hd)⟩

lemma XMLDecl.legal {x : List Char} (h : XMLDecl x) : Legal x := by
  obtain ⟨v, e, d, s, hv, he, hd, hs, rfl⟩ := h
  have hversion : Legal v := hv.legal (by decide) fun _ => legal_of_isVersionNum
  have hencoding : Legal e := by
    rcases he with rfl | he
    · exact legal_nil
    · exact he.legal (by decide) fun _ => legal_of_isEncName
  have hstandalone : Legal d := by
    rcases hd with rfl | hd
    · exact legal_nil
    · refine hd.legal (by decide) fun w hw => ?_
      simp only [Bool.or_eq_true, decide_eq_true_eq] at hw
      rcases hw with rfl | rfl <;> decide
  simp only [legal_append]
  exact ⟨⟨⟨⟨⟨by decide, hversion⟩, hencoding⟩, hstandalone⟩, hs.legal⟩, by decide⟩

/-- A document is made of legal characters. -/
theorem legal_of_document {s : List Char} (h : Document s) : Legal s := by
  obtain ⟨decl, m, x, m', hdecl, hm, hx, hm', rfl⟩ := h
  have hlegal : Legal decl := by
    rcases hdecl with rfl | hdecl
    · exact legal_nil
    · exact hdecl.legal
  simp only [legal_append]
  exact ⟨⟨⟨hlegal, hm.legal⟩, hx.legal⟩, hm'.legal⟩

end Xml
