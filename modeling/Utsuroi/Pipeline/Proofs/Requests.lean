import Mathlib.Tactic
import Utsuroi.Pipeline.Proofs.ContentHistory
import Utsuroi.Pipeline.Proofs.Gatekeeping
import Utsuroi.Pipeline.Requests

/-!
# Only allowed URLs are requested, but for the redirects of a robots.txt
-/

namespace Utsuroi

open Async Prog

section Requests

variable {net : NetTools} {tools : HttpTools} {policy : FetcherPolicy}
  {network : Nat → CallNetwork} {log : List (Prog.Call RunSite Store)}

/-- The requests of a log are those of its calls. -/
theorem mem_logRequests {url : Url} : url ∈ logRequests net tools policy network log ↔
    ∃ newer call past, log = newer ++ call :: past ∧ url ∈ sentOf (network past.length) call.fault
      (callRequests net tools policy (network past.length) call.site.site) := by
  induction log with
  | nil => simp [logRequests]
  | cons head log ih =>
    rw [logRequests, List.mem_append, ih]
    constructor
    · rintro (⟨newer, call, past, rfl, hmem⟩ | hmem)
      · exact ⟨head :: newer, call, past, rfl, hmem⟩
      · exact ⟨[], head, log, rfl, hmem⟩
    · rintro ⟨newer, call, past, heq, hmem⟩
      cases newer with
      | nil =>
        cases heq
        exact Or.inr hmem
      | cons first newer =>
        cases heq
        exact Or.inl ⟨newer, call, past, rfl, hmem⟩

theorem mem_of_mem_sentOf {network : CallNetwork} {fault : Fault} {requests : List Url} {url : Url}
    (h : url ∈ sentOf network fault requests) : url ∈ requests := by
  cases fault with
  | throwBefore => exact List.mem_of_mem_take h
  | killBefore => exact List.mem_of_mem_take h
  | none => exact h
  | throwAfter => exact h
  | killAfter => exact h

/-- Documents and title pages are requested only where the check lets the URL pass, redirects
included. -/
theorem sequenceRequests_allowed {network : CallNetwork} {req : FetchRequest} {request : Url}
    {executions : List Execution}
    (h : request ∈ sequenceRequests net tools network req executions) :
    (checkUrlForSsrf net request).allowed = true := by
  obtain ⟨execution, _, hmem⟩ := List.mem_flatMap.mp h
  split at hmem
  · exact httpFetch_guarded request hmem
  · contradiction

/-- What is sent first of a robots.txt is the request for it. -/
private theorem mem_sentOf_cons {network : CallNetwork} {fault : Fault} {robotsUrl request : Url}
    {hops : List Url} (h : request ∈ sentOf network fault (robotsUrl :: hops)) :
    request = robotsUrl ∨ request ∈ (sentOf network fault (robotsUrl :: hops)).tail := by
  have hhead : ∀ n, request ∈ (robotsUrl :: hops).take n →
      request = robotsUrl ∨ request ∈ ((robotsUrl :: hops).take n).tail := by
    intro n hmem
    cases n with
    | zero => simp at hmem
    | succ n => simpa using hmem
  cases fault with
  | throwBefore => exact hhead _ h
  | killBefore => exact hhead _ h
  | none => exact List.mem_cons.mp h
  | throwAfter => exact List.mem_cons.mp h
  | killAfter => exact List.mem_cons.mp h

/-- Where the document is allowed, its robots.txt is found at a URL that is allowed too. -/
theorem robotsUrlOf_asked {items : ItemTools} {origin : String} {url : Url}
    (hssrf : (netItems net items).ssrfAllowed url = true)
    (horigin : (netItems net items).origin url = some origin) :
    ∃ robotsUrl, robotsUrlOf net origin = some robotsUrl ∧
      (checkUrlForSsrf net robotsUrl).allowed = true := by
  obtain ⟨parts, robotsUrl, hparse, hrobots, hallowed⟩ := robotsUrl_allowed hssrf
  obtain ⟨parts', hparse', hparts⟩ := checkUrlForSsrf_allowed_iff.mp hssrf
  obtain rfl := Option.some.inj (hparse.symm.trans hparse')
  have heq : origin = parts.origin := by
    simpa [netItems, hparse, hparts.scheme] using horigin.symm
  exact ⟨robotsUrl, heq ▸ hrobots, hallowed⟩

/-- For every check, whatever the servers answer and whatever is thrown or cut off: all that the
worker requests of the sites is allowed exactly if no robots.txt asked for redirects to a URL that
is refused. -/
theorem requests_allowed_iff (net : NetTools) (tools : HttpTools) (policy : FetcherPolicy)
    (network : Nat → CallNetwork) (items : ItemTools) (contents : ContentTools)
    (source : SourceRow) (world : CheckWorld) (monitorId : MonitorId) (faults : List Fault)
    (store : Store) :
    let log := ((runMonitorCheck (siteWorld (netItems net items) contents source world)
      monitorId).exec faults [] store).log
    (∀ url ∈ logRequests net tools policy network log, (checkUrlForSsrf net url).allowed = true) ↔
      RobotsRedirectsAllowed net network log := by
  intro log
  constructor
  · intro hall newer call past origin url robotsUrl hlog hsite hrobots hcached hop hmem
    refine hall hop (mem_logRequests.mpr ⟨newer, call, past, hlog, ?_⟩)
    rw [hsite, callRequests, robotsRequests_stale net hrobots hcached]
    exact List.mem_of_mem_tail hmem
  · intro hredirects request hmem
    obtain ⟨newer, call, past, hlog, hsent⟩ := mem_logRequests.mp hmem
    have hadmits := (runMonitorCheck_obeys monitorId).log faults store newer call past hlog
    cases hsite : call.site.site with
    | fetchTarget url =>
      rw [hsite] at hsent
      exact sequenceRequests_allowed (mem_of_mem_sentOf hsent)
    | fetchPage url =>
      rw [hsite] at hsent
      exact sequenceRequests_allowed (mem_of_mem_sentOf hsent)
    | checkRobots origin url =>
      change (sourceRequests (netItems net items) source world).admits call.site.site _ at hadmits
      rw [hsite] at hadmits hsent
      obtain ⟨hssrf, horigin⟩ := hadmits
      obtain ⟨robotsUrl, hrobots, hallowed⟩ := robotsUrlOf_asked hssrf horigin
      cases hcached : freshEntry (network past.length).cached (network past.length).now with
      | some entry =>
        rw [callRequests, robotsRequests_fresh net hcached] at hsent
        exact absurd (mem_of_mem_sentOf hsent) List.not_mem_nil
      | none =>
        rw [callRequests, robotsRequests_stale net hrobots hcached] at hsent
        rcases mem_sentOf_cons hsent with rfl | hhop
        · exact hallowed
        · exact hredirects newer call past origin url robotsUrl hlog hsite hrobots hcached request hhop
    | _ =>
      rw [hsite] at hsent
      exact absurd (mem_of_mem_sentOf hsent) List.not_mem_nil

end Requests

/-! ## A robots.txt that redirects to an address of the cloud -/

private def metadataUrl : Url := "http://169.254.169.254/latest/meta-data/"

private def exampleParts : UrlParts := ⟨"https:", "", "", "example.com", none⟩

private def exampleParse (url : String) : Option UrlParts :=
  if url ∈ ["https://example.com", "https://example.com/", "https://example.com/robots.txt"] then
    some exampleParts
  else if url ∈ ["http://169.254.169.254", metadataUrl, "http://169.254.169.254/robots.txt"] then
    some ⟨"http:", "", "", "169.254.169.254", none⟩
  else none

private def exampleJoin (reference : String) (base : Url) : Option Url :=
  if reference = "/robots.txt" then some (base ++ "/robots.txt")
  else (exampleParse reference).map fun _ => reference

private theorem exampleParse_cases {url : Url} {parts : UrlParts}
    (h : exampleParse url = some parts) :
    parts = exampleParts ∨ parts = ⟨"http:", "", "", "169.254.169.254", none⟩ := by
  unfold exampleParse at h
  split at h
  · exact Or.inl (Option.some.inj h).symm
  split at h
  · exact Or.inr (Option.some.inj h).symm
  · contradiction

private def exampleNet : NetTools where
  parse := exampleParse
  join := exampleJoin
  classifyHostname hostname := if hostname = "169.254.169.254" then some "metadata" else none
  parse_origin := by
    intro url parts hparse _
    rcases exampleParse_cases hparse with rfl | rfl <;> decide
  join_robots := by
    intro url parts hparse _
    rcases exampleParse_cases hparse with rfl | rfl
    · exact ⟨"https://example.com/robots.txt", by decide, by decide⟩
    · exact ⟨"http://169.254.169.254/robots.txt", by decide, by decide⟩

private def httpTools : HttpTools where
  decodeText := fun _ => ""
  number := String.toNat?
  dateParse := fun _ => none
  latin1Headers := false

private def robotsTools : RobotsTools where
  decodeText := fun _ => ""
  parseRobotsTxt := fun _ => some EMPTY_ROBOTS_RULES
  evaluateRobots := fun _ _ _ => ⟨true, "none", none⟩

/-- The site redirects requests for its robots.txt; everything else is not found. -/
private def redirectingServers : Servers := fun _ url =>
  if url = "https://example.com/robots.txt" then .ok ⟨302, [("location", metadataUrl)], none⟩
  else .ok ⟨404, [], none⟩

private def redirectingNetwork : CallNetwork where
  servers := fun _ => redirectingServers
  cached := none
  now := 0
  userAgent := "utsuroi"
  etag := none
  lastModified := none
  elsewhere := fun _ _ => .failure .internalError none
  recorded := fun _ => true
  sent := 0

private def exampleItems : ItemTools where
  ssrfAllowed := fun _ => true
  resolvedAllowed := fun _ => true
  origin := fun _ => none
  robotsMode := fun _ => .enforce
  robots := fun origin url =>
    (checkRobots exampleNet robotsTools redirectingServers none 0 origin url).decision.getD
      ⟨false, none, true, 0, "unavailable"⟩
  fetchPage := fun _ => none
  fetchTarget := fun _ _ _ _ => .failure .notFound none
  pathname := fun _ => none
  extractHtmlTitle := fun _ _ => none
  regExp := fun _ _ => none
  parseSource := fun _ _ _ _ => none
  extractItems := fun _ _ _ => []
  sha256Bytes := fun _ => ""

private def exampleWorld : CheckWorld where
  trigger := .scheduled
  now := 0
  source := none
  site := some ⟨1, none⟩
  policy := some ()
  staticSsrfAllowed := true
  resolvedAllowed := true
  origin := ""
  robotsMode := .enforce
  robots := ⟨true, none, false, 0, "none"⟩
  lease := ⟨true, some 1, none⟩
  fetchTarget _ _ := ⟨.ret (.failure .notFound none), trivial⟩
  processor _ _ := ⟨.ret [], trivial⟩
  checkedNow := 0
  finishNow := 0
  random := 0
  appliedNow := 0

private def cfHttpPolicy : FetcherPolicy := ⟨[CF_HTTP], [⟨CF_HTTP, none⟩]⟩

/-- The platform requests the address for the worker. -/
theorem requests_allowed_violated :
    ¬∀ (net : NetTools) (tools : HttpTools) (policy : FetcherPolicy)
      (network : Nat → CallNetwork) (items : ItemTools) (contents : ContentTools)
      (source : SourceRow) (world : CheckWorld) (monitorId : MonitorId) (faults : List Fault)
      (store : Store),
      ∀ url ∈ logRequests net tools policy network ((runMonitorCheck (siteWorld
        (netItems net items) contents source world) monitorId).exec faults [] store).log,
        (checkUrlForSsrf net url).allowed = true := by
  intro hall
  have hallowed := hall exampleNet httpTools cfHttpPolicy (fun _ => redirectingNetwork) exampleItems
    pageTools pageWatch.source exampleWorld 1 [] uncheckedStore metadataUrl
    (List.contains_iff_mem.mp (by decide +kernel))
  exact absurd hallowed (by decide +kernel)

end Utsuroi
