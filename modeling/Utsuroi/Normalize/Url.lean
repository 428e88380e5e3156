import Utsuroi.Framework.Positional
import Utsuroi.Framework.UrlEncoded
import Utsuroi.Shared.Utf16

/-!
# Attributes that hold a URL

The value of a `href` or `src` is made absolute and loses its tracking parameters.  Parameters are
deleted through `URLSearchParams`: each deletion writes the whole query anew.
-/

namespace Utsuroi

def DEFAULT_STRIP_QUERY_PARAMS : List String :=
  ["utm_*", "gclid", "fbclid", "yclid", "mc_cid", "mc_eid"]

section Entities

open Positional (isDigit readDigits)

def isAsciiLetter (c : Char) : Bool :=
  ('a' ≤ c && c ≤ 'z') || ('A' ≤ c && c ≤ 'Z')

/-- What `#[xX]?[0-9a-fA-F]+|[a-zA-Z]+` matches at the start of the text. -/
def matchRef : List Char → List Char
  | '#' :: text =>
    let mark := (text.take 1).filter fun c => c == 'x' || c == 'X'
    let digits := (text.drop mark.length).takeWhile (isDigit 16)
    if digits.isEmpty then [] else '#' :: mark ++ digits
  | text => text.takeWhile isAsciiLetter

/-- The reference between a `&` and the `;` behind it. -/
def entityRef (text : List Char) : Option (List Char) :=
  let ref := matchRef text
  if !ref.isEmpty && (text.drop ref.length).head? == some ';' then some ref else none

def codePointUnits (n : Nat) : List Nat :=
  if n < 0x10000 then [n] else [0xD800 + (n - 0x10000) / 0x400, 0xDC00 + (n - 0x10000) % 0x400]

/-- `Number.parseInt`, `none` for `NaN`. -/
def parseRefNumber (ref : List Char) : Option Nat :=
  let isHex := ref.head? == some 'x' || ref.head? == some 'X'
  let digits := if isHex then ref.drop 1 else ref.takeWhile (isDigit 10)
  if digits.isEmpty then none else some (readDigits (if isHex then 16 else 10) digits)

/-- The code units a reference stands for, `none` where it is left as it is. -/
def entityUnits : List Char → Option (List Nat)
  | '#' :: ref =>
    match parseRefNumber ref with
    | some codePoint => if codePoint ≤ 0x10ffff then some (codePointUnits codePoint) else none
    | none => none
  | ref =>
    let name := ref.map Char.toLower
    if name = "amp".toList then some [0x26]
    else if name = "lt".toList then some [0x3c]
    else if name = "gt".toList then some [0x3e]
    else if name = "quot".toList then some [0x22]
    else if name = "apos".toList then some [0x27]
    else none

/-- The first `skip` characters belong to a reference that has been read. -/
def decodeEntitiesFrom : Nat → List Char → List Nat
  | _, [] => []
  | skip + 1, _ :: text => decodeEntitiesFrom skip text
  | 0, c :: text =>
    match (if c = '&' then entityRef text else none) with
    | some ref =>
      (entityUnits ref).getD ('&' :: ref ++ [';'] |>.flatMap charUnits) ++
        decodeEntitiesFrom (ref.length + 1) text
    | none => charUnits c ++ decodeEntitiesFrom 0 text

def decodeCommonHtmlEntities (value : String) : List Nat := decodeEntitiesFrom 0 value.toList

/-- A code unit on its own; half a pair is no character. -/
def unitChar (unit : Nat) : Char :=
  if 0xD800 ≤ unit ∧ unit ≤ 0xDFFF then Utf8.replacement else Char.ofNat unit

/-- The text `new URL` reads in code units. -/
def unitsText : List Nat → List Char
  | [] => []
  | [unit] => [unitChar unit]
  | high :: low :: units =>
    if 0xD800 ≤ high ∧ high ≤ 0xDBFF ∧ 0xDC00 ≤ low ∧ low ≤ 0xDFFF then
      Char.ofNat (0x10000 + (high - 0xD800) * 0x400 + (low - 0xDC00)) :: unitsText units
    else unitChar high :: unitsText (low :: units)

example : unitsText (decodeCommonHtmlEntities "?a=1&amp;b=&#x32;&#xD83D;&#xDE00;&nbsp;") =
    "?a=1&b=2😀&nbsp;".toList := by
  decide +kernel

end Entities

/-- A parsed URL; `before` is all that is written before the query. -/
structure UrlRecord where
  protocol : String
  before : List Char
  query : Option (List Char)
  fragment : Option (List Char)
  deriving DecidableEq

namespace UrlRecord

def isHttp (url : UrlRecord) : Bool := url.protocol == "http:" || url.protocol == "https:"

def toString (url : UrlRecord) : String :=
  String.ofList (url.before ++ url.query.elim [] ('?' :: ·) ++ url.fragment.elim [] ('#' :: ·))

end UrlRecord

/-- `url.searchParams` with the URL it belongs to. -/
structure SearchParams where
  url : UrlRecord
  list : List UrlEncoded.Pair

namespace UrlRecord

def searchParams (url : UrlRecord) : SearchParams := ⟨url, UrlEncoded.parse (url.query.getD [])⟩

end UrlRecord

namespace SearchParams

def keys (params : SearchParams) : List (List Char) := params.list.map Prod.fst

/-- The query of the URL is written anew; it goes when no parameter is left. -/
def update (params : SearchParams) : SearchParams :=
  let query := UrlEncoded.serialise params.list
  { params with url := { params.url with query := if query = [] then none else some query } }

def delete (params : SearchParams) (key : List Char) : SearchParams :=
  update { params with list := params.list.filter fun pair => pair.1 != key }

end SearchParams

/-- The platform's `URL` and `toLowerCase`. -/
structure UrlPlatform where
  /-- `new URL(text, base)`, `none` when it throws -/
  parse : String → Option String → Option UrlRecord
  toLowerCase : String → String

section Normalize

variable (platform : UrlPlatform)

def matchesKeyPattern (lowerKey pattern : String) : Bool :=
  let lowerPattern := (platform.toLowerCase pattern).toList
  if lowerPattern.getLast? == some '*' then lowerPattern.dropLast.isPrefixOf lowerKey.toList
  else lowerKey.toList == lowerPattern

def matchesAnyPattern (patterns : List String) (key : List Char) : Bool :=
  patterns.any (matchesKeyPattern platform (platform.toLowerCase (String.ofList key)))

def stripTrackingParams (patterns : List String) (params : SearchParams) : SearchParams :=
  let keysToDelete := params.keys.filter (matchesAnyPattern platform patterns)
  keysToDelete.foldl SearchParams.delete params

def normalizeUrlAttribute (value baseUrl : String) (stripQueryParams : List String) : String :=
  let trimmed := decodeCommonHtmlEntities (trim value)
  if trimmed.isEmpty then value
  else
    match platform.parse (String.ofList (unitsText trimmed)) (some baseUrl) with
    | none => value
    | some resolved =>
      if !resolved.isHttp then value
      else (stripTrackingParams platform stripQueryParams resolved.searchParams).url.toString

/-- The URL of an item, `none` where the attribute holds no http(s) URL. -/
def resolveItemLinkUrl (href baseUrl : String) : Option String :=
  let resolved := normalizeUrlAttribute platform href baseUrl DEFAULT_STRIP_QUERY_PARAMS
  match platform.parse resolved none with
  | none => none
  | some url => if !url.isHttp then none else some url.toString

/-- The attribute holds an http(s) URL. -/
structure HoldsUrl (value baseUrl : String) (url : UrlRecord) : Prop where
  nonempty : (decodeCommonHtmlEntities (trim value)).isEmpty = false
  parsed : platform.parse (String.ofList (unitsText (decodeCommonHtmlEntities (trim value))))
    (some baseUrl) = some url
  http : url.isHttp = true

variable {platform} {value baseUrl : String} {url : UrlRecord}

theorem normalizeUrlAttribute_of_url (h : HoldsUrl platform value baseUrl url)
    (patterns : List String) :
    normalizeUrlAttribute platform value baseUrl patterns =
      (stripTrackingParams platform patterns url.searchParams).url.toString := by
  simp [normalizeUrlAttribute, h.nonempty, h.parsed, h.http]

end Normalize

end Utsuroi
