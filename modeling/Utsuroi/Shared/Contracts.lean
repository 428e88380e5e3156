import Utsuroi.Shared.Types

/-!
# What modules hand to one another
-/

namespace Utsuroi

/-- An entry of a feed, a sitemap or an extracted page; `updatedAt` is a sitemap's lastmod. -/
structure FeedItem where
  stableKey : String
  url : Option String
  title : Option String
  updatedAt : Option String
  summary : Option String
  /-- name and value of the extracted fields -/
  fields : List (String × String)
  deriving DecidableEq, Repr

structure AdapterParseResult where
  kind : SourceType
  items : List FeedItem
  deriving DecidableEq, Repr

/-- What a successful fetch of a document answers, its body apart. -/
structure FetchSuccess where
  contentType : Option String
  etag : Option String
  lastModified : Option String
  deriving DecidableEq, Repr

/-- What a fetch comes to; a 304 is a success without a body. -/
inductive FetchOutcome
  | success (result : FetchSuccess) (notModified : Bool) (body : Option (List UInt8))
  | failure (failureClass : FailureClass) (retryAfterSeconds : Option Nat)
  deriving DecidableEq, Repr

structure RobotsDecision where
  allowed : Bool
  matchedRule : Option String
  /-- robots.txt could not be fetched, which disallows everything -/
  unavailable : Bool
  fetchedAt : Nat
  userAgentGroup : String
  deriving DecidableEq, Repr

structure NormalizedContent where
  extractedText : String
  rawHash : String
  normalizedHash : String
  textHash : String
  normalizationVersion : Nat
  deriving DecidableEq, Repr

structure TextDiffResult where
  changed : Bool
  unifiedDiff : String
  addedCount : Nat
  removedCount : Nat
  deriving DecidableEq, Repr

end Utsuroi
