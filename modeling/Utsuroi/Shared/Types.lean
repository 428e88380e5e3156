/-!
# Shared domain types
-/

namespace Utsuroi

inductive SourceType
  | page
  | rss
  | atom
  | sitemap
  | sitemapIndex
  deriving DecidableEq, Repr

inductive MonitorStatus
  | active
  | paused
  | blockedByRobots
  | failing
  | archived
  deriving DecidableEq, Repr

/-- How a fetch failed. -/
inductive FailureClass
  | networkError
  | timeout
  | http5xx
  | http429
  | http403
  | notFound
  | authRequired
  | blockedByRobots
  | ssrfBlocked
  | tooLarge
  | captchaChallenge
  | invalidContentType
  | parseError
  | internalError
  | executorUnavailable
  deriving DecidableEq, Repr

inductive ChangeKind
  | new
  | updated
  | removed
  deriving DecidableEq, Repr

inductive DiffLevel
  | httpMetadata
  | rawHash
  | normalizedHash
  | textHash
  | structural
  deriving DecidableEq, Repr

inductive CheckJobStatus
  | pending
  | running
  | succeeded
  | failed
  | policyStopped
  deriving DecidableEq, Repr

/-- `sending` is the claim of a consumer; a claim of `CLAIM_STALE_MS` is stale. -/
inductive DeliveryStatus
  | pending
  | sending
  | delivered
  | failed
  | dead
  deriving DecidableEq, Repr

inductive RobotsMode
  | enforce
  | ignore
  deriving DecidableEq, Repr

/-- What started a check. -/
inductive Trigger
  | scheduled
  | manual
  | reconciliation
  deriving DecidableEq, Repr

end Utsuroi
