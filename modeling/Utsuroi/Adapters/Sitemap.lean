import Utsuroi.Adapters.Dates
import Utsuroi.Normalize.Url
import Utsuroi.Shared.Contracts

/-!
# Sitemaps and sitemap indexes

Both list a loc with an optional lastmod; of several entries with the same loc the first counts.
-/

namespace Utsuroi

/-! ## Parsed XML -/

/-- A value of the XML parser. -/
inductive XmlValue
  | null
  | text (value : String)
  /-- a number or a boolean, as `String` shows it -/
  | scalar (shown : String)
  | object (fields : List (String × XmlValue))
  | array (items : List XmlValue)

namespace XmlValue

/-- `node[name]`; what is not there is `null`. -/
def field (node : XmlValue) (name : String) : XmlValue :=
  match node with
  | object fields => (fields.lookup name).getD null
  | _ => null

/-- `raw && typeof raw === 'object'` -/
def isObject : XmlValue → Bool
  | object _ => true
  | array _ => true
  | _ => false

end XmlValue

def asArray : XmlValue → List XmlValue
  | .null => []
  | .array items => items
  | node => [node]

/-- A trimmed text, unless nothing is left of it. -/
def trimmedText (value : String) : Option String :=
  if trim value = "" then none else some (trim value)

def textOf : XmlValue → Option String
  | .text value => trimmedText value
  | .scalar shown => some shown
  | .object fields =>
    match (XmlValue.object fields).field "#text" with
    | .text value => trimmedText value
    | .scalar shown => some shown
    | _ => none
  | _ => none

/-! ## Entries -/

def resolveUrl (platform : UrlPlatform) (raw baseUrl : String) : String :=
  let trimmed := trim raw
  match platform.parse trimmed (some baseUrl) with
  | some url => url.toString
  | none => trimmed

/-- What both kinds of sitemaps are parsed to. -/
structure SitemapResult extends AdapterParseResult where
  childSitemaps : List String
  /-- `meta.title` -/
  title : Option String

section Build

variable (platform : UrlPlatform) (tools : DateTools) (baseUrl : String)

def sitemapItem (loc : String) (lastmodRaw : Option String) : FeedItem where
  stableKey := loc
  url := some loc
  title := none
  updatedAt := lastmodRaw.bind (normalizeIsoDate tools)
  summary := none
  fields := []

/-- The loop over the entries; `seen` holds the locs of the items so far. -/
def sitemapItems : List String → List XmlValue → List FeedItem
  | _, [] => []
  | seen, raw :: nodes =>
    if !raw.isObject then sitemapItems seen nodes
    else
      match textOf (raw.field "loc") with
      | none => sitemapItems seen nodes
      | some locText =>
        let loc := resolveUrl platform locText baseUrl
        if seen.contains loc then sitemapItems seen nodes
        else
          sitemapItem tools loc (textOf (raw.field "lastmod")) :: sitemapItems (loc :: seen) nodes

def buildSitemapResult (urlset : XmlValue) : SitemapResult where
  kind := .sitemap
  items := sitemapItems platform tools baseUrl [] (asArray (urlset.field "url"))
  childSitemaps := []
  title := none

end Build

end Utsuroi
