import LocalCast.Foundations.UriEncode
import LocalCast.Http.Range

/-!
`modules/webdav/xml.ts`: the multistatus document, written as a string.

* `escapeXml`: how a text is written into it.
* `encodeHref`: the path of a resource; none where `encodeURIComponent` throws.
* `DavResource`, `renderResource`, `buildMultistatus`: the document of a listing.
-/

namespace LocalCast.Webdav

open JsString JsNumber

/-- `ESCAPES`, and the other units as they are. -/
def ESCAPES (c : CodeUnit) : JsString :=
  if c = 38 then js "&amp;"
  else if c = 60 then js "&lt;"
  else if c = 62 then js "&gt;"
  else if c = 34 then js "&quot;"
  else if c = 39 then js "&apos;"
  else [c]

/-- `/[\u0000-\u0008\u000B\u000C\u000E-\u001F]/`. -/
def isStripped (c : CodeUnit) : Bool :=
  c ≤ 8 || c = 11 || c = 12 || (14 ≤ c && c ≤ 31)

def escapeXml (value : JsString) : JsString :=
  (value.flatMap ESCAPES).filter fun c => !isStripped c

def encodeHref (segments : List JsString) : Option JsString :=
  (segments.mapM encodeURIComponent).map (join (js "/"))

structure DavResource where
  href : JsString
  displayName : JsString
  isCollection : Bool
  contentLength : ℚ
  lastModifiedMs : ℚ
  etag : JsString
  contentType : Option JsString

/-- An element with a text in it. -/
def element (name : String) (text : JsString) : JsString :=
  js "<D:" ++ js name ++ js ">" ++ text ++ js "</D:" ++ js name ++ js ">"

/-- The type that is written, of a file that has one. -/
def DavResource.writtenType (resource : DavResource) : Option JsString :=
  if resource.isCollection then none else resource.contentType.filter (· ≠ [])

/-- `props` of `renderResource`. -/
def renderProps (resource : DavResource) : List JsString :=
  [ element "displayname" (escapeXml resource.displayName),
    if resource.isCollection then js "<D:resourcetype><D:collection/></D:resourcetype>"
      else js "<D:resourcetype/>",
    element "getcontentlength" (decimal ⌊resource.contentLength⌋.toNat),
    -- `new Date` drops the fraction of a millisecond towards zero
    element "getlastmodified" (toUTCString
      (if resource.lastModifiedMs < 0 then ⌈resource.lastModifiedMs⌉
        else ⌊resource.lastModifiedMs⌋)),
    element "getetag" (escapeXml resource.etag) ] ++
  (resource.writtenType.map fun type => element "getcontenttype" (escapeXml type)).toList ++
  [js "<D:supportedlock/>"]

def renderResource (resource : DavResource) : JsString :=
  ([js "<D:response>", element "href" (escapeXml resource.href), js "<D:propstat>",
      js "<D:prop>"] ++ renderProps resource ++
    [js "</D:prop>", js "<D:status>HTTP/1.1 200 OK</D:status>", js "</D:propstat>",
      js "</D:response>"]).flatten

def buildMultistatus (resources : List DavResource) : JsString :=
  ([js "<?xml version=\"1.0\" encoding=\"utf-8\"?>", js "<D:multistatus xmlns:D=\"DAV:\">"] ++
    resources.map renderResource ++ [js "</D:multistatus>"]).flatten

example : escapeXml (js "\"Q&A\"\x00 <1>.pdf") = js "&quot;Q&amp;A&quot; &lt;1&gt;.pdf" := by
  decide

end LocalCast.Webdav
