import LocalCast.Db.Schema
import LocalCast.Library.Resolver
import LocalCast.Uploads.Paths

/-!
What the index derives from the name of a file: `library/mediaTypes.ts`, and the columns that
`reconcile` of `library/indexer.ts` writes with it.

* `TABLE`, `describe`: what is known by extension. An extension that is the name of a property
  every object has is looked up there, and `describe` answers something that is no descriptor.
* `Derived`, `derive`: the derived columns of a row.
* `isDescribed`, `isSome_media_kind_iff`: the names for which there is a kind to write.
-/

namespace LocalCast.Library

open JsString

/-! ### The source -/

/-- `MediaKind`. -/
inductive MediaKind where
  | video | audio | image | document | archive | other
deriving DecidableEq, Repr

/-- `MediaDescriptor`, as far as the index keeps it. -/
structure MediaDescriptor where
  kind : MediaKind
  printable : Bool
  browserPlayable : Bool
deriving DecidableEq, Repr

/-- `OTHER`. -/
def OTHER : MediaDescriptor := ⟨.other, false, false⟩

def video (browserPlayable : Bool) : MediaDescriptor := ⟨.video, false, browserPlayable⟩

def audio (browserPlayable : Bool) : MediaDescriptor := ⟨.audio, false, browserPlayable⟩

def image (printable : Bool) : MediaDescriptor := ⟨.image, printable, false⟩

def document (printable : Bool) : MediaDescriptor := ⟨.document, printable, false⟩

def archive : MediaDescriptor := ⟨.archive, false, false⟩

/-- `TABLE`. -/
def TABLE : List (JsString × MediaDescriptor) :=
  [ (js "mp4", video true), (js "m4v", video true), (js "mov", video true),
    (js "mkv", video false), (js "webm", video false), (js "avi", video false),
    (js "wmv", video false), (js "flv", video false), (js "mpg", video false),
    (js "mpeg", video false), (js "ts", video false), (js "m2ts", video false),
    (js "mts", video false), (js "ogv", video false), (js "3gp", video false),
    (js "rmvb", video false), (js "divx", video false), (js "vob", video false),
    (js "mp3", audio true), (js "m4a", audio true), (js "aac", audio true),
    (js "wav", audio true), (js "aif", audio true), (js "aiff", audio true),
    (js "flac", audio true), (js "ogg", audio false), (js "oga", audio false),
    (js "opus", audio false), (js "wma", audio false),
    (js "jpg", image true), (js "jpeg", image true), (js "png", image true),
    (js "gif", image true), (js "bmp", image true), (js "tif", image true),
    (js "tiff", image true), (js "webp", image true), (js "heic", image false),
    (js "heif", image false), (js "svg", image false), (js "avif", image false),
    (js "ico", image false),
    (js "pdf", document true), (js "txt", document false), (js "md", document false),
    (js "rtf", document false), (js "doc", document false), (js "docx", document false),
    (js "xls", document false), (js "xlsx", document false), (js "ppt", document false),
    (js "pptx", document false), (js "epub", document false), (js "srt", document false),
    (js "vtt", document false),
    (js "zip", archive), (js "rar", archive), (js "7z", archive), (js "tar", archive),
    (js "gz", archive), (js "iso", archive) ]

/-- The properties that an object literal has from its prototype. -/
def inherited : List JsString :=
  ["constructor", "__proto__", "hasOwnProperty", "isPrototypeOf", "propertyIsEnumerable",
    "toLocaleString", "toString", "valueOf", "__defineGetter__", "__defineSetter__",
    "__lookupGetter__", "__lookupSetter__"].map js

/-- `path.extname` of a name without separators. -/
def extname (name : JsString) : JsString :=
  if name = js ".." then [] else (Uploads.splitExt name).2

/-- `extensionOf`. -/
def extensionOf (cm : CaseMap) (name : JsString) : JsString :=
  let ext := extname name
  if (js ".").isPrefixOf ext then cm.toLowerCase ext.tail else []

/-- `describe`; none where `TABLE[extensionOf(name)]` is a property of the prototype, which has
neither a kind nor a flag. -/
def describe (cm : CaseMap) (name : JsString) : Option MediaDescriptor :=
  let ext := extensionOf cm name
  match TABLE.find? fun row => row.1 = ext with
  | some row => some row.2
  | none => if inherited.contains ext then none else some OTHER

/-- The derived columns of a row; no kind where `d.kind` is undefined. -/
structure Derived where
  ext : Option JsString
  media_kind : Option MediaKind
  printable : Bool
  browser_playable : Bool
deriving DecidableEq, Repr

/-- What `reconcile` derives from an entry. -/
def derive (cm : CaseMap) (isDir : Bool) (name : JsString) : Derived :=
  if isDir then ⟨none, some .other, false, false⟩
  else
    let d := describe cm name
    let ext := cm.toLowerCase (extname name).tail
    { ext := if ext = [] then none else some ext
      media_kind := d.map MediaDescriptor.kind
      printable := (d.map MediaDescriptor.printable).getD false
      browser_playable := (d.map MediaDescriptor.browserPlayable).getD false }

/-! ### Names with a kind -/

/-- The extension of a file is not the name of an inherited property. -/
def isDescribed (cm : CaseMap) (isDir : Bool) (name : JsString) : Bool :=
  isDir || !inherited.contains (extensionOf cm name)

/-- No extension of the table is the name of an inherited property. -/
lemma not_inherited_of_mem_TABLE : ∀ row ∈ TABLE, inherited.contains row.1 = false := by
  decide +kernel

lemma isSome_describe_iff {cm : CaseMap} {name : JsString} :
    (describe cm name).isSome ↔ inherited.contains (extensionOf cm name) = false := by
  simp only [describe]
  cases hrow : TABLE.find? fun row => row.1 = extensionOf cm name with
  | some row =>
      have hname : row.1 = extensionOf cm name := by simpa using List.find?_some hrow
      have hfree := not_inherited_of_mem_TABLE row (List.mem_of_find?_eq_some hrow)
      rw [hname] at hfree
      exact iff_of_true rfl hfree
  | none => cases inherited.contains (extensionOf cm name) <;> simp

/-- There is a kind to write exactly for the names that are described. -/
lemma isSome_media_kind_iff {cm : CaseMap} {isDir : Bool} {name : JsString} :
    (derive cm isDir name).media_kind.isSome ↔ isDescribed cm isDir name = true := by
  cases isDir with
  | true => simp [derive, isDescribed]
  | false => simp [derive, isDescribed, isSome_describe_iff]

end LocalCast.Library
