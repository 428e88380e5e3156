import Utsuroi.Pipeline.ItemTools

/-!
# The static check of a URL
-/

namespace Utsuroi

/-- What `new URL` makes of a URL; `port` is `none` where it is the default of the protocol. -/
structure UrlParts where
  protocol : String
  username : String
  password : String
  hostname : String
  port : Option Nat
  deriving DecidableEq, Repr

def UrlParts.isHttp (parts : UrlParts) : Bool :=
  parts.protocol == "http:" || parts.protocol == "https:"

/-- `origin` of a URL whose protocol is http or https. -/
def UrlParts.origin (parts : UrlParts) : String :=
  parts.protocol ++ "//" ++ parts.hostname ++ (parts.port.elim "" fun port => ":" ++ toString port)

/-- The platform's URLs and the classification of host names. -/
structure NetTools where
  /-- `new URL(url)`, `none` when it throws -/
  parse : Url → Option UrlParts
  /-- `new URL(reference, base).toString()`, `none` when it throws -/
  join : String → Url → Option Url
  /-- `classifyHostname`, the reason where it blocks -/
  classifyHostname : String → Option String
  /-- An origin is a URL that names this origin alone. -/
  parse_origin : ∀ url parts, parse url = some parts → parts.isHttp = true →
    parse parts.origin = some { parts with username := "", password := "" }
  /-- So does the URL of its document `/robots.txt`. -/
  join_robots : ∀ url parts, parse url = some parts → parts.isHttp = true →
    ∃ robotsUrl, join "/robots.txt" parts.origin = some robotsUrl ∧
      parse robotsUrl = some { parts with username := "", password := "" }

structure SsrfCheckResult where
  allowed : Bool
  reason : Option String
  deriving DecidableEq, Repr

def allow : SsrfCheckResult := ⟨true, none⟩

def deny (reason : String) : SsrfCheckResult := ⟨false, some reason⟩

def ALLOWED_PORTS : List Nat := [80, 443, 8080, 8443]

def defaultPortFor (protocol : String) : Nat := if protocol = "https:" then 443 else 80

section Ssrf

variable (net : NetTools)

def checkUrlForSsrf (url : Url) : SsrfCheckResult :=
  match net.parse url with
  | none => deny "invalid_url"
  | some parts =>
    if !parts.isHttp then deny "scheme"
    else if parts.username != "" || parts.password != "" then deny "userinfo"
    else if !ALLOWED_PORTS.contains (parts.port.getD (defaultPortFor parts.protocol)) then deny "port"
    else if parts.hostname == "" then deny "invalid_url"
    else
      match net.classifyHostname parts.hostname with
      | some reason => deny reason
      | none => allow

/-- What the check lets through. -/
structure AllowedParts (parts : UrlParts) : Prop where
  scheme : parts.isHttp = true
  username : parts.username = ""
  password : parts.password = ""
  port : parts.port.getD (defaultPortFor parts.protocol) ∈ ALLOWED_PORTS
  hostname : parts.hostname ≠ ""
  host : net.classifyHostname parts.hostname = none

variable {net}

theorem checkUrlForSsrf_allowed_iff {url : Url} : (checkUrlForSsrf net url).allowed = true ↔
    ∃ parts, net.parse url = some parts ∧ AllowedParts net parts := by
  unfold checkUrlForSsrf
  cases net.parse url with
  | none => simp [deny]
  | some parts =>
    constructor
    · intro h
      refine ⟨parts, rfl, ?_⟩
      dsimp only at h
      split at h
      · contradiction
      next hscheme =>
      split at h
      · contradiction
      next huser =>
      split at h
      · contradiction
      next hport =>
      split at h
      · contradiction
      next hhostname =>
      cases hhost : net.classifyHostname parts.hostname with
      | some reason =>
        rw [hhost] at h
        contradiction
      | none =>
        simp only [Bool.or_eq_true, bne_iff_ne, not_or, Decidable.not_not] at huser
        exact ⟨by simpa using hscheme, huser.1, huser.2, by simpa using hport,
          by simpa using hhostname, hhost⟩
    · rintro ⟨parts', hparts, h⟩
      obtain rfl := Option.some.inj hparts
      simp [h.scheme, h.username, h.password, h.port, h.hostname, h.host, allow]

/-- `new URL('/robots.txt', new URL(originUrl).origin)`, `none` when it throws -/
def robotsUrlOf (net : NetTools) (originUrl : String) : Option Url :=
  (net.parse originUrl).bind fun parts => net.join "/robots.txt" parts.origin

/-- Where a URL is allowed, so is the robots.txt of its origin. -/
theorem robotsUrl_allowed {url : Url} (h : (checkUrlForSsrf net url).allowed = true) :
    ∃ parts robotsUrl, net.parse url = some parts ∧ robotsUrlOf net parts.origin = some robotsUrl ∧
      (checkUrlForSsrf net robotsUrl).allowed = true := by
  obtain ⟨parts, hparse, hallowed⟩ := checkUrlForSsrf_allowed_iff.mp h
  have horigin := net.parse_origin url parts hparse hallowed.scheme
  obtain ⟨robotsUrl, hjoin, hrobots⟩ := net.join_robots url parts hparse hallowed.scheme
  refine ⟨parts, robotsUrl, hparse, ?_, checkUrlForSsrf_allowed_iff.mpr ⟨_, hrobots, ?_⟩⟩
  · rw [robotsUrlOf, horigin]
    exact hjoin
  · exact ⟨hallowed.scheme, rfl, rfl, hallowed.port, hallowed.hostname, hallowed.host⟩

end Ssrf

end Utsuroi
