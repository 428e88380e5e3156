import Utsuroi.Framework.Run
import Utsuroi.Framework.Program
import Utsuroi.Framework.CrashLogic
import Utsuroi.Shared.Types
import Utsuroi.Shared.Contracts
import Utsuroi.Do.HostObject
import Utsuroi.Do.Proofs.RateLimit
import Utsuroi.Do.Proofs.Breaker
import Utsuroi.Do.HostAccess
import Utsuroi.Do.Proofs.HostAccess
import Utsuroi.Db.Types
import Utsuroi.Db.Store
import Utsuroi.Db.Deliveries
import Utsuroi.Db.Items
import Utsuroi.Pipeline.Types
import Utsuroi.Pipeline.Notify
import Utsuroi.Pipeline.Content
import Utsuroi.Pipeline.Proofs.Fanout
import Utsuroi.Framework.KeyedHistory
import Utsuroi.Framework.Guard
import Utsuroi.Framework.Passing
import Utsuroi.Pipeline.ContentHistory
import Utsuroi.Pipeline.Proofs.ContentHistory
import Utsuroi.Db.NotifyStore
import Utsuroi.Framework.RelyGuarantee
import Utsuroi.Notify.Batch
import Utsuroi.Notify.Queue
import Utsuroi.Notify.Consumer
import Utsuroi.Notify.QueueInv
import Utsuroi.Notify.Delivery
import Utsuroi.Notify.Proofs.NoLostNotification
import Utsuroi.Notify.Proofs.Terminality
import Utsuroi.Notify.Proofs.Exclusivity
import Utsuroi.Framework.Frame
import Utsuroi.Db.Jobs
import Utsuroi.Pipeline.RunCheck
import Utsuroi.Do.MonitorObject
import Utsuroi.Do.CrawlerObject
import Utsuroi.Do.CrawlerJob
import Utsuroi.Do.CrawlerView
import Utsuroi.Do.CrawlerAlarm
import Utsuroi.Do.Proofs.Crawler
import Utsuroi.Do.Proofs.CrawlerAlarm
import Utsuroi.Do.Proofs.Schedule
import Utsuroi.Pipeline.ContentProcessor
import Utsuroi.Shared.Utf16
import Utsuroi.Pipeline.ItemTools
import Utsuroi.Pipeline.EnrichTitle
import Utsuroi.Pipeline.Classify
import Utsuroi.Pipeline.Feed
import Utsuroi.Pipeline.Frames
import Utsuroi.Pipeline.Undisturbed
import Utsuroi.Pipeline.FeedHistory
import Utsuroi.Pipeline.Proofs.FeedChanges
import Utsuroi.Pipeline.Document
import Utsuroi.Pipeline.Proofs.ContentRecovery
import Utsuroi.Pipeline.Proofs.CarryOver
import Utsuroi.Shared.IsoDate
import Utsuroi.Pipeline.ChildPatterns
import Utsuroi.Pipeline.SitemapTraversal
import Utsuroi.Pipeline.Proofs.Baseline
import Utsuroi.Pipeline.Gatekeeping
import Utsuroi.Pipeline.Proofs.Gatekeeping
import Utsuroi.Fetch.Policy
import Utsuroi.Fetch.Proofs.Policy
import Utsuroi.Fetch.Http
import Utsuroi.Robots.Check
import Utsuroi.Pipeline.Proofs.Requests
import Utsuroi.Robots.Types
import Utsuroi.Net.Ssrf
import Utsuroi.Pipeline.Requests
import Utsuroi.Framework.Interference
import Utsuroi.Framework.PoolRun
import Utsuroi.Framework.Closed
import Utsuroi.Pipeline.CheckParts
import Utsuroi.Pipeline.Overlap
import Utsuroi.Pipeline.Proofs.Watermarks
import Utsuroi.Pipeline.Proofs.TagFanout
import Utsuroi.Do.MonitorCalls
import Utsuroi.Do.Proofs.MonitorCalls
import Utsuroi.Do.MonitorRuns
import Utsuroi.Do.Proofs.PolicyStop
import Utsuroi.Do.Proofs.RobotsOutage
import Utsuroi.Robots.Proofs.Glob
import Utsuroi.Robots.Proofs.Verdict
import Utsuroi.Robots.Proofs.SitemapLines
import Utsuroi.Robots.Parser
import Utsuroi.Net.Proofs.EmbeddedIPv4
import Utsuroi.Pipeline.Proofs.HostLease
import Utsuroi.Fetch.Proofs.Transport
import Utsuroi.Framework.Base64
import Utsuroi.Framework.Utf8
import Utsuroi.Framework.Json
import Utsuroi.Fetch.ExecutorToken
import Utsuroi.Executors.Jwt
import Utsuroi.Executors.Proofs.TokenAgreement
import Utsuroi.Executors.Fetcher
import Utsuroi.Executors.Proofs.Pinning
import Utsuroi.Fetch.Proofs.Confinement
import Utsuroi.Framework.Positional
import Utsuroi.Framework.Separated
import Utsuroi.Net.Hostname
import Utsuroi.Net.Proofs.IPv4Spelling
import Utsuroi.Net.Proofs.IPv6Spelling
import Utsuroi.Net.Proofs.HostnameSpelling
import Utsuroi.Framework.FixedWidth
import Utsuroi.Shared.Proofs.CivilDate
import Utsuroi.Shared.Proofs.IsoOrder
import Utsuroi.Adapters.Dates
import Utsuroi.Adapters.Proofs.Timestamps
import Utsuroi.Normalize.Include
import Utsuroi.Normalize.Proofs.Include
import Utsuroi.Rpc.FetchPage
import Utsuroi.Rpc.Proofs.PageConfinement
import Utsuroi.Framework.UrlEncoded
import Utsuroi.Normalize.Url
import Utsuroi.Normalize.Proofs.Tracking
import Utsuroi.Framework.Spacing
import Utsuroi.Normalize.Text
import Utsuroi.Normalize.Proofs.IndentGaps
import Utsuroi.Normalize.Proofs.TextHash
import Utsuroi.Pipeline.Proofs.ChildGlob
import Utsuroi.Robots.PercentEncoding
import Utsuroi.Robots.Proofs.PercentEncoding
import Utsuroi.Framework.Sorting
import Utsuroi.Normalize.Attributes
import Utsuroi.Normalize.Proofs.Attributes
import Utsuroi.Framework.Transaction
import Utsuroi.Db.FetcherPolicies
import Utsuroi.Db.Proofs.FetcherPolicies
import Utsuroi.Framework.Relational
import Utsuroi.Db.Monitors
import Utsuroi.Db.Proofs.Monitors
import Utsuroi.Pipeline.FetchTarget
import Utsuroi.Pipeline.Proofs.PullBudget
import Utsuroi.Adapters.Rfc822
import Utsuroi.Adapters.Proofs.Rfc822
import Utsuroi.Adapters.Sitemap
import Utsuroi.Pipeline.Proofs.SitemapDocument
import Utsuroi.Executors.Runner
import Utsuroi.Framework.Log
import Utsuroi.Executors.Proofs.Runner
import Utsuroi.Normalize.ExtractItems
import Utsuroi.Normalize.Proofs.ExtractItems
import Utsuroi.Framework.JsonSchema
import Utsuroi.Api.Runner
import Utsuroi.Executors.Execute
import Utsuroi.Executors.Proofs.Execute
import Utsuroi.Fetch.GcpHttp
import Utsuroi.Executors.Server
import Utsuroi.Executors.Proofs.Server
import Utsuroi.Fetch.Proofs.ExecutorPath
import Utsuroi.Executors.Proofs.GcpExchange
import Utsuroi.Framework.Table
import Utsuroi.Api.Auth
import Utsuroi.Api.Proofs.Auth
import Utsuroi.Robots.Cache
import Utsuroi.Robots.Proofs.Cache
import Utsuroi.Db.Deletions
import Utsuroi.Db.Proofs.Deletions
import Utsuroi.Executors.Proofs.PostedRequest
import Utsuroi.Normalize.Charset
import Utsuroi.Do.CrawlerAnswers
import Utsuroi.Do.CrawlerEvents
import Utsuroi.Notify.Proofs.ConsumerContract
import Utsuroi.Pipeline.Proofs.DocumentPasses
