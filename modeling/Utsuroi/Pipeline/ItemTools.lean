import Utsuroi.Db.Types
import Utsuroi.Normalize.Charset

/-!
# What item processing asks the world
-/

namespace Utsuroi

/-- A page fetched for its title. -/
structure TitlePage where
  status : Nat
  contentType : Option String
  body : Option (List UInt8)
  deriving DecidableEq, Repr

/-- The network, the settings of the site and the libraries, as item processing meets them. -/
structure ItemTools where
  /-- `checkUrlForSsrf` -/
  ssrfAllowed : Url → Bool
  /-- `resolveAndCheck` -/
  resolvedAllowed : Url → Bool
  /-- `new URL(url).origin`, `none` when it throws -/
  origin : Url → Option String
  robotsMode : String → RobotsMode
  /-- `checkRobots(origin, url)` -/
  robots : String → Url → RobotsDecision
  /-- `runFetchSequence` with `httpFetch`, `none` when the fetch failed -/
  fetchPage : Url → Option TitlePage
  /-- the check's n-th `fetchTargetThroughPolicy`, with an etag and a last-modified -/
  fetchTarget : Nat → Url → Option String → Option String → FetchOutcome
  /-- `new URL(url).pathname`, `none` when it throws -/
  pathname : Url → Option String
  extractHtmlTitle : List UInt8 → Option String → Option String
  /-- `new RegExp(pattern, flags)` and its `test`, `none` when the pattern does not compile -/
  regExp : String → String → Option (String → Bool)
  /-- of a body with the charset its header names; `none` when the adapter throws
  `AdapterParseError` -/
  parseSource : SourceType → Url → List UInt8 → Option String → Option AdapterParseResult
  extractItems : ExtractConfig → FetchSuccess → List UInt8 → List FeedItem
  sha256Bytes : List UInt8 → Hash

end Utsuroi
