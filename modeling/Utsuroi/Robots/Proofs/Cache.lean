import Utsuroi.Framework.Table
import Utsuroi.Robots.Cache

/-!
# What the cache of robots.txt tells

However the checks overlap, what one reads from the cache is what another has fetched for the same
origin within the last hour, and it decides as that fetch would have.
-/

namespace Utsuroi.RobotsCache

open Transition

/-! ## Rows -/

private theorem listOf_map {α : Type} {read : Json → Option α} {write : α → Json}
    (h : ∀ x, read (write x) = some x) (xs : List α) : listOf read (.array (xs.map write)) = some xs := by
  change (xs.map write).mapM read = some xs
  induction xs with
  | nil => rfl
  | cons x xs ih =>
      rw [List.map_cons, List.mapM_cons, h, ih]
      rfl

private theorem readRule_ruleJson (rule : RobotsRule) : readRule (ruleJson rule) = some rule := by
  obtain ⟨directive, pattern⟩ := rule
  cases directive <;> rfl

private theorem readGroup_groupJson (group : RobotsGroup) : readGroup (groupJson group) = some group := by
  have hagents : memberAs (listOf Json.string?) (groupJson group) "userAgents" = some group.userAgents :=
    @listOf_map _ Json.string? Json.string (fun _ => rfl) group.userAgents
  have hrules : memberAs (listOf readRule) (groupJson group) "rules" = some group.rules :=
    listOf_map readRule_ruleJson group.rules
  rw [readGroup, hagents, hrules]
  rfl

theorem readRules_rulesJson (rules : RobotsRules) : readRules (rulesJson rules) = some rules := by
  have hgroups : memberAs (listOf readGroup) (rulesJson rules) "groups" = some rules.groups :=
    listOf_map readGroup_groupJson rules.groups
  have hsitemaps : memberAs (listOf Json.string?) (rulesJson rules) "sitemaps" = some rules.sitemaps :=
    @listOf_map _ Json.string? Json.string (fun _ => rfl) rules.sitemaps
  rw [readRules, hgroups, hsitemaps]
  rfl

/-- What is put is what is got. -/
theorem toCachedRobots_rowOf {entry : CachedRobots} (h : entry.unavailable = false) :
    toCachedRobots (rowOf entry) = entry := by
  obtain ⟨robotsUrl, fetchedAt, rules, unavailable⟩ := entry
  obtain rfl : unavailable = false := h
  have hsome : String.ofList (rulesJson rules).text ≠ "" := by
    rw [rulesJson, Json.text]
    intro hempty
    simpa using congrArg String.toList hempty
  simp only [toCachedRobots, rowOf, Bool.false_eq_true, if_false, Option.filter, hsome, ne_eq,
    not_false_eq_true, decide_true, if_true, Option.bind_some, String.toList_ofList, Json.parse_text,
    readRules_rulesJson, Option.getD_some]
  rfl

/-! ## What is seen -/

section Log

variable (net : NetTools) (tools : RobotsTools)

def CacheEffect.isOutcome (id : CheckId) : CacheEffect → Bool
  | .decided other _ => other = id
  | .threw other => other = id
  | _ => false

/-- How often a check decides or throws. -/
def outcomes (log : List CacheEffect) (id : CheckId) : Nat := log.countP (CacheEffect.isOutcome id)

/-- A check has begun. -/
structure Begun (log : List CacheEffect) (id : CheckId) (query : RobotsQuery) : Prop where
  began : .began id query ∈ log
  origin : ∃ parts, net.parse query.originUrl = some parts ∧ query.origin = parts.origin
  robotsUrl : robotsUrlOf net query.originUrl = some query.robotsUrl

/-- A check has fetched robots.txt. -/
structure Fetched (log : List CacheEffect) (id : CheckId) (query : RobotsQuery)
    (response : Except NetworkError HttpResponse) : Prop extends Begun net log id query where
  fetched : .fetched id response ∈ log

/-- A check decides as it would without a cache on what it has fetched itself, or on what an earlier
check for its origin has fetched within the time kept. -/
def Decided (before : List CacheEffect) (e : CacheEffect) : Prop :=
  ∀ id answer, e = .decided id answer → ∃ query source asked response,
    .began id query ∈ before ∧ Fetched net before source asked response ∧
      asked.origin = query.origin ∧ answer.robotsUrl = query.robotsUrl ∧
      (∀ servers, (platformFetch net servers asked.robotsUrl).response = response →
        (checkRobots net tools servers none asked.now asked.originUrl query.targetUrl).decision =
          some answer.decision) ∧
      if answer.fromCache then
        asked.now ≤ query.now ∧ query.now - asked.now < DEFAULT_ROBOTS_TTL_SECONDS * 1000 ∧
          answer.decision.unavailable = false
      else source = id ∧ asked = query

end Log

/-! ## The invariant -/

section Invariant

variable (net : NetTools) (tools : RobotsTools)

/-- What a check has fetched is there to be kept. -/
def Sourced (log : List CacheEffect) (origin : String) (entry : CachedRobots) : Prop :=
  ∃ id query response, Fetched net log id query response ∧ query.origin = origin ∧
    entry = entryOf tools query.robotsUrl query.now response ∧ entry.unavailable = false

/-- What is known of a check that waits. -/
def Waits (log : List CacheEffect) (id : CheckId) : Phase → Prop
  | .fetching query => Begun net log id query
  | .storing query entry => ∃ response, Fetched net log id query response ∧
      entry = entryOf tools query.robotsUrl query.now response ∧ entry.unavailable = false

/-- What holds while a check, if any, is held by the code that runs. -/
structure Kept (s : CacheState) (log : List CacheEffect) (held : Option CheckId) : Prop where
  decided : Log.Each (Decided net tools) log
  accounted : Table.Accounted s.pending (outcomes log) s.arrived held
  rows : ∀ origin row, s.rows origin = some row →
    ∃ entry, row = rowOf entry ∧ Sourced net tools log origin entry
  waits : ∀ id phase, (id, phase) ∈ s.pending → Waits net tools log id phase

variable {net tools} {s : CacheState} {log longer : List CacheEffect} {held : Option CheckId}
  {id : CheckId} {query : RobotsQuery} {response : Except NetworkError HttpResponse}

private theorem Begun.mono (h : Begun net log id query) (hlog : log ⊆ longer) :
    Begun net longer id query := ⟨hlog h.began, h.origin, h.robotsUrl⟩

private theorem Fetched.mono (h : Fetched net log id query response) (hlog : log ⊆ longer) :
    Fetched net longer id query response := ⟨h.toBegun.mono hlog, hlog h.fetched⟩

private theorem Sourced.mono {origin : String} {entry : CachedRobots}
    (h : Sourced net tools log origin entry) (hlog : log ⊆ longer) :
    Sourced net tools longer origin entry := by
  obtain ⟨id, query, response, hfetched, hrest⟩ := h
  exact ⟨id, query, response, hfetched.mono hlog, hrest⟩

private theorem Sourced.available {origin : String} {entry : CachedRobots}
    (h : Sourced net tools log origin entry) : entry.unavailable = false := by
  obtain ⟨id, query, response, hfetched, horigin, hentry, havailable⟩ := h
  exact havailable

private theorem Waits.mono {phase : Phase} (h : Waits net tools log id phase) (hlog : log ⊆ longer) :
    Waits net tools longer id phase := by
  cases phase with
  | fetching query => exact Begun.mono h hlog
  | storing query entry =>
      obtain ⟨response, hfetched, hrest⟩ := h
      exact ⟨response, hfetched.mono hlog, hrest⟩

/-- Without a cache a check decides on its own fetch. -/
private theorem checkRobots_fetched {servers : Servers} {now : Nat} {originUrl robotsUrl targetUrl : Url}
    (hrobots : robotsUrlOf net originUrl = some robotsUrl)
    (hresponse : (platformFetch net servers robotsUrl).response = response) :
    (checkRobots net tools servers none now originUrl targetUrl).decision =
      some (decisionOf tools (entryOf tools robotsUrl now response) targetUrl) := by
  subst hresponse
  simp only [checkRobots, hrobots, freshEntry, Option.filter_none]
  rfl

/-- Checks of one origin read one robots.txt. -/
private theorem Begun.sameUrl {other : CheckId} {asked : RobotsQuery} (h : Begun net log id query)
    (hasked : Begun net log other asked) (horigin : asked.origin = query.origin) :
    asked.robotsUrl = query.robotsUrl := by
  obtain ⟨parts, hparse, hparts⟩ := h.origin
  obtain ⟨askedParts, haskedParse, haskedParts⟩ := hasked.origin
  have hurl := h.robotsUrl
  have haskedUrl := hasked.robotsUrl
  rw [robotsUrlOf, hparse, Option.bind_some, ← hparts] at hurl
  rw [robotsUrlOf, haskedParse, Option.bind_some, ← haskedParts, horigin, hurl] at haskedUrl
  exact (Option.some.inj haskedUrl).symm

private theorem outcomes_concat (e : CacheEffect) (other : CheckId) :
    outcomes (log ++ [e]) other = outcomes log other + if e.isOutcome other then 1 else 0 := by
  rw [outcomes, List.countP_append, List.countP_singleton]
  rfl

/-- An entry is added that is no end of a check. -/
private theorem Kept.note (h : Kept net tools s log held) {e : CacheEffect}
    (hend : ∀ other, e.isOutcome other = false) : Kept net tools s (log ++ [e]) held where
  decided := h.decided.concat fun other answer heq => by
    have hother := hend other
    rw [heq] at hother
    simp [CacheEffect.isOutcome] at hother
  accounted := h.accounted.congr fun other => by simp [outcomes_concat, hend]
  rows origin row hrow := by
    obtain ⟨entry, hentry, hsourced⟩ := h.rows origin row hrow
    exact ⟨entry, hentry, hsourced.mono (List.subset_append_left _ _)⟩
  waits other phase hphase := (h.waits other phase hphase).mono (List.subset_append_left _ _)

/-- The check that is held comes to its end. -/
private theorem Kept.finish (h : Kept net tools s log (some id)) {e : CacheEffect}
    (hdecided : Decided net tools log e) (hend : ∀ other, e.isOutcome other = decide (id = other)) :
    Kept net tools s (log ++ [e]) none where
  decided := h.decided.concat hdecided
  accounted := h.accounted.finish fun other => by simp [outcomes_concat, hend]
  rows origin row hrow := by
    obtain ⟨entry, hentry, hsourced⟩ := h.rows origin row hrow
    exact ⟨entry, hentry, hsourced.mono (List.subset_append_left _ _)⟩
  waits other phase hphase := (h.waits other phase hphase).mono (List.subset_append_left _ _)

private theorem Kept.throw (h : Kept net tools s log (some id)) :
    Kept net tools s (log ++ [.threw id]) none :=
  h.finish (by simp [Decided]) fun other => rfl

/-- The check that is held waits. -/
private theorem Kept.wait (h : Kept net tools s log (some id)) {phase : Phase}
    (hwaits : Waits net tools log id phase) :
    Kept net tools { s with pending := s.pending ++ [(id, phase)] } log none where
  decided := h.decided
  accounted := h.accounted.put phase
  rows := h.rows
  waits other phase' hphase := by
    rcases List.mem_append.mp hphase with hphase | hphase
    · exact h.waits other phase' hphase
    · obtain ⟨rfl, rfl⟩ := Prod.mk.inj (List.mem_singleton.mp hphase)
      exact hwaits

/-- A check that waited is held again. -/
private theorem Kept.take (h : Kept net tools s log none) {phase : Phase}
    (hwaits : s.pending.lookup id = some phase) :
    Kept net tools (s.drop id) log (some id) ∧ Waits net tools log id phase :=
  ⟨⟨h.decided, h.accounted.take hwaits, h.rows,
    fun other phase' hphase => h.waits other phase' (List.mem_of_mem_filter hphase)⟩,
    h.waits id phase (Table.mem_of_lookup hwaits)⟩

/-- What a check has fetched itself is what it decides on. -/
private theorem Fetched.decided {targetUrl : Url} (h : Fetched net log id query response)
    (htarget : targetUrl = query.targetUrl) :
    Decided net tools log (.decided id
      (answerOf tools (entryOf tools query.robotsUrl query.now response) targetUrl false)) := by
  subst htarget
  rintro id' answer heq
  obtain ⟨rfl, rfl⟩ := CacheEffect.decided.inj heq
  exact ⟨query, id, query, response, h.began, h, rfl, rfl,
    fun servers hresponse => checkRobots_fetched h.robotsUrl hresponse, rfl, rfl⟩

/-- So is what the cache has of another check. -/
private theorem Sourced.decided {entry : CachedRobots} (h : Begun net log id query)
    (hsourced : Sourced net tools log query.origin entry)
    (hfresh : isFresh query.now entry = true) :
    Decided net tools log (.decided id (answerOf tools entry query.targetUrl true)) := by
  obtain ⟨source, asked, response, hfetched, horigin, rfl, havailable⟩ := hsourced
  simp only [isFresh, Bool.and_eq_true, decide_eq_true_eq] at hfresh
  rintro id' answer heq
  obtain ⟨rfl, rfl⟩ := CacheEffect.decided.inj heq
  refine ⟨query, source, asked, response, h.began, hfetched, horigin,
    h.sameUrl hfetched.toBegun horigin,
    fun servers hresponse => checkRobots_fetched hfetched.robotsUrl hresponse, hfresh.1, hfresh.2, ?_⟩
  simp [answerOf, decisionOf, havailable]

/-! ## Steps -/

private theorem Kept.arrive (h : Kept net tools s log none) :
    Kept net tools { s with arrived := s.arrived + 1 } log (some s.arrived) :=
  ⟨h.decided, h.accounted.give, h.rows, h.waits⟩

private theorem Kept.beginCheck (h : Kept net tools s log none) (originUrl targetUrl : Url) (now : Nat) :
    Kept net tools (s.beginCheck net tools originUrl targetUrl now).1
      (log ++ (s.beginCheck net tools originUrl targetUrl now).2) none := by
  have hheld := h.arrive
  unfold CacheState.beginCheck
  simp only
  split
  · next parts robotsUrl hparse hrobots =>
      have hbegun : Begun net
          (log ++ [.began s.arrived ⟨originUrl, parts.origin, robotsUrl, targetUrl, now⟩]) s.arrived
          ⟨originUrl, parts.origin, robotsUrl, targetUrl, now⟩ :=
        ⟨by simp, ⟨parts, hparse, rfl⟩, hrobots⟩
      have hnoted := hheld.note (e := .began s.arrived
        ⟨originUrl, parts.origin, robotsUrl, targetUrl, now⟩) fun _ => rfl
      split
      · next entry hentry =>
          rw [List.append_cons log]
          refine hnoted.finish ?_ fun other => rfl
          obtain ⟨hcached, hfresh⟩ := Option.filter_eq_some_iff.mp hentry
          obtain ⟨row, hrow, rfl⟩ := Option.map_eq_some_iff.mp hcached
          obtain ⟨kept, rfl, hsourced⟩ := hnoted.rows _ row hrow
          have havailable : kept.unavailable = false := hsourced.available
          rw [toCachedRobots_rowOf havailable] at hfresh ⊢
          exact Sourced.decided hbegun hsourced hfresh
      · rw [List.append_cons log]
        refine (hnoted.note (e := .fetchStarted s.arrived robotsUrl) fun _ => rfl).wait ?_
        exact hbegun.mono (List.subset_append_left _ _)
  · exact hheld.throw

private theorem Kept.answer (h : Kept net tools s log none)
    (hwaits : s.pending.lookup id = some (.fetching query))
    (response : Except NetworkError HttpResponse) :
    Kept net tools (s.answer tools id query response).1
      (log ++ (s.answer tools id query response).2) none := by
  obtain ⟨hheld, hbegun⟩ := h.take hwaits
  have hnoted := hheld.note (e := .fetched id response) fun _ => rfl
  have hfetched : Fetched net (log ++ [.fetched id response]) id query response :=
    ⟨Begun.mono hbegun (List.subset_append_left _ _), by simp⟩
  unfold CacheState.answer
  simp only
  split
  · rw [List.append_cons log]
    exact hnoted.finish (hfetched.decided rfl) fun other => rfl
  · next havailable =>
      exact hnoted.wait ⟨response, hfetched, rfl, by simpa using havailable⟩

private theorem Kept.put (h : Kept net tools s log held) {entry : CachedRobots}
    (hsourced : Sourced net tools log query.origin entry) :
    Kept net tools (s.put query.origin entry) log held where
  decided := h.decided
  accounted := h.accounted
  rows origin row hrow := by
    change Function.update s.rows query.origin (some (rowOf entry)) origin = some row at hrow
    by_cases horigin : origin = query.origin
    · subst horigin
      rw [Function.update_self] at hrow
      exact ⟨entry, (Option.some.inj hrow).symm, hsourced⟩
    · rw [Function.update_of_ne horigin] at hrow
      exact h.rows origin row hrow
  waits := h.waits

theorem Kept.step (h : Kept net tools s log none) {e : CacheEvent} {s' : CacheState}
    {effects : List CacheEffect} (hstep : s.cacheStep net tools e = some (s', effects)) :
    Kept net tools s' (log ++ effects) none := by
  cases e with
  | begins originUrl targetUrl now =>
      have hkept := h.beginCheck originUrl targetUrl now
      rwa [Option.some.inj hstep] at hkept
  | readFails =>
      obtain ⟨rfl, rfl⟩ := Prod.mk.inj (Option.some.inj hstep)
      exact h.arrive.throw
  | answered id response =>
      simp only [CacheState.cacheStep] at hstep
      split at hstep
      · next query hwaits =>
          have hkept := h.answer hwaits response
          rwa [Option.some.inj hstep] at hkept
      · exact absurd hstep (by simp)
  | stored id =>
      simp only [CacheState.cacheStep] at hstep
      split at hstep
      · next query entry hwaits =>
          obtain ⟨rfl, rfl⟩ := Prod.mk.inj (Option.some.inj hstep)
          obtain ⟨hheld, response, hfetched, rfl, havailable⟩ := h.take hwaits
          rw [List.append_cons log]
          refine ((hheld.put ⟨id, query, response, hfetched, rfl, rfl, havailable⟩).note
            fun _ => rfl).finish ?_ fun other => rfl
          exact (hfetched.mono (List.subset_append_left _ _)).decided rfl
      · exact absurd hstep (by simp)
  | storeFails id written =>
      simp only [CacheState.cacheStep] at hstep
      split at hstep
      · next query entry hwaits =>
          obtain ⟨hheld, response, hfetched, rfl, havailable⟩ := h.take hwaits
          cases written with
          | true =>
              obtain ⟨rfl, rfl⟩ := Prod.mk.inj (Option.some.inj hstep)
              rw [List.append_cons log]
              exact ((hheld.put ⟨id, query, response, hfetched, rfl, rfl, havailable⟩).note
                fun _ => rfl).throw
          | false =>
              obtain ⟨rfl, rfl⟩ := Prod.mk.inj (Option.some.inj hstep)
              exact hheld.throw
      · exact absurd hstep (by simp)

variable {es : List CacheEvent}

theorem run_kept (h : (CacheState.robotsCache net tools).Run anyStep es (s, log)) :
    Kept net tools s log none := by
  refine @Log.machine_invariant _ _ _ _ _ _ _ _ _ (fun _ s log => Kept net tools s log none) h ?_ ?_
  · exact ⟨Log.each_nil, Table.accounted_nil, by simp [CacheState.init], by simp [CacheState.init]⟩
  · exact fun past before log e after effects hkept hstep _ => hkept.step hstep

/-- However the checks overlap and whichever reads and writes fail: each check decides or throws once or still
waits, and it decides as it would on its own fetch, or as a check without a cache did at the time at
which robots.txt was last read for the same origin, less than an hour before; what could not be
fetched is never taken from the cache. -/
theorem robotsCache_agrees (h : (CacheState.robotsCache net tools).Run anyStep es (s, log)) :
    Log.Each (Decided net tools) log ∧
      ∀ id, Table.count s.pending id + outcomes log id = if id < s.arrived then 1 else 0 :=
  ⟨(run_kept h).decided, (run_kept h).accounted.balance⟩

end Invariant

/-! Two checks of one site, of which the second finds what the first has read. -/

private def newsParts : UrlParts := ⟨"https:", "", "", "news.example", none⟩

private def newsParse (url : Url) : Option UrlParts :=
  if url ∈ ["https://news.example", "https://news.example/robots.txt"] then some newsParts else none

private theorem newsParse_eq {url : Url} {parts : UrlParts} (h : newsParse url = some parts) :
    parts = newsParts := by
  unfold newsParse at h
  split at h
  · exact (Option.some.inj h).symm
  · contradiction

def newsNet : NetTools where
  parse := newsParse
  join reference base := some (base ++ reference)
  classifyHostname _ := none
  parse_origin := by
    intro url parts hparse _
    obtain rfl := newsParse_eq hparse
    decide +kernel
  join_robots := by
    intro url parts hparse _
    obtain rfl := newsParse_eq hparse
    exact ⟨"https://news.example/robots.txt", by decide +kernel, by decide +kernel⟩

def newsRules : RobotsRules := ⟨[⟨["*"], [⟨.disallow, "/drafts"⟩]⟩], []⟩

def newsTools : RobotsTools where
  decodeText bytes := if bytes = [] then "" else "User-agent: *\nDisallow: /drafts"
  parseRobotsTxt text := some (if text = "" then EMPTY_ROBOTS_RULES else newsRules)
  evaluateRobots rules url _ :=
    if rules = newsRules ∧ url = "https://news.example/drafts" then
      ⟨false, "*", some "/drafts"⟩
    else ⟨true, "*", none⟩

def newsResponse : Except NetworkError HttpResponse := .ok ⟨200, [], some ⟨[[85, 115, 101, 114]], none⟩⟩

def newsQuery : RobotsQuery :=
  ⟨"https://news.example", "https://news.example", "https://news.example/robots.txt",
    "https://news.example/", 1000⟩

def newsEntry : CachedRobots := ⟨"https://news.example/robots.txt", 1000, newsRules, false⟩

def draftsQuery : RobotsQuery := { newsQuery with targetUrl := "https://news.example/drafts", now := 2000 }

def newsLog : List CacheEffect :=
  [.began 0 newsQuery, .fetchStarted 0 newsQuery.robotsUrl, .fetched 0 newsResponse,
    .written newsQuery.origin (rowOf newsEntry),
    .decided 0 ⟨⟨true, none, false, 1000, "*"⟩, newsQuery.robotsUrl, false⟩, .began 1 draftsQuery,
    .decided 1 ⟨⟨false, some "/drafts", false, 1000, "*"⟩, newsQuery.robotsUrl, true⟩]

private theorem newsEntry_eq : entryOf newsTools newsQuery.robotsUrl newsQuery.now newsResponse = newsEntry := by
  decide +kernel

private def newsState : CacheState :=
  ⟨Function.update (fun _ => none) "https://news.example" (some (rowOf newsEntry)), 1, []⟩

private theorem newsRun : ∃ s, (CacheState.robotsCache newsNet newsTools).Run anyStep
    [.begins "https://news.example" "https://news.example/drafts" 2000, .stored 0,
      .answered 0 newsResponse, .begins "https://news.example" "https://news.example/" 1000]
    (s, newsLog) := by
  have hparse : newsNet.parse "https://news.example" = some newsParts := by decide +kernel
  have horigin : newsParts.origin = "https://news.example" := by decide +kernel
  have hrobots : robotsUrlOf newsNet "https://news.example" = some "https://news.example/robots.txt" := by
    decide +kernel
  have hfirst : CacheState.cacheStep newsNet newsTools (.init fun _ => none)
      (.begins "https://news.example" "https://news.example/" 1000) =
      some (⟨fun _ => none, 1, [(0, .fetching newsQuery)]⟩,
        [.began 0 newsQuery, .fetchStarted 0 newsQuery.robotsUrl]) := by
    simp only [CacheState.cacheStep, CacheState.beginCheck, hparse, hrobots, horigin]
    rfl
  have hsecond : CacheState.cacheStep newsNet newsTools ⟨fun _ => none, 1, [(0, .fetching newsQuery)]⟩
      (.answered 0 newsResponse) =
      some (⟨fun _ => none, 1, [(0, .storing newsQuery newsEntry)]⟩, [.fetched 0 newsResponse]) := by
    simp only [CacheState.cacheStep, List.lookup_cons_self, CacheState.answer, newsEntry_eq]
    rfl
  have hthird : CacheState.cacheStep newsNet newsTools
      ⟨fun _ => none, 1, [(0, .storing newsQuery newsEntry)]⟩ (.stored 0) =
      some (newsState, [.written newsQuery.origin (rowOf newsEntry),
        .decided 0 ⟨⟨true, none, false, 1000, "*"⟩, newsQuery.robotsUrl, false⟩]) := by
    have hanswer : answerOf newsTools newsEntry newsQuery.targetUrl false =
        ⟨⟨true, none, false, 1000, "*"⟩, newsQuery.robotsUrl, false⟩ := by decide +kernel
    simp only [CacheState.cacheStep, List.lookup_cons_self, hanswer]
    rfl
  have hfourth : CacheState.cacheStep newsNet newsTools newsState
      (.begins "https://news.example" "https://news.example/drafts" 2000) =
      some ({ newsState with arrived := 2 }, [.began 1 draftsQuery,
        .decided 1 ⟨⟨false, some "/drafts", false, 1000, "*"⟩, newsQuery.robotsUrl, true⟩]) := by
    have hrow : (newsState.rows "https://news.example").map toCachedRobots = some newsEntry := by
      change (Function.update (fun _ => none) "https://news.example" (some (rowOf newsEntry))
        "https://news.example").map toCachedRobots = some newsEntry
      rw [Function.update_self, Option.map_some, toCachedRobots_rowOf rfl]
    have hfresh : freshEntry (some newsEntry) 2000 = some newsEntry := by decide +kernel
    have hanswer : answerOf newsTools newsEntry "https://news.example/drafts" true =
        ⟨⟨false, some "/drafts", false, 1000, "*"⟩, newsQuery.robotsUrl, true⟩ := by decide +kernel
    simp only [CacheState.cacheStep, CacheState.beginCheck, hparse, hrobots, horigin, hrow, hfresh,
      hanswer]
    rfl
  exact ⟨_, Log.machine_next (Log.machine_next (Log.machine_next (Log.machine_next Log.machine_start
    hfirst trivial) hsecond trivial) hthird trivial) hfourth trivial⟩

/-- The drafts are disallowed by what the check of the front page has read. -/
theorem robotsCache_agrees_news :
    .decided 1 ⟨⟨false, some "/drafts", false, 1000, "*"⟩, newsQuery.robotsUrl, true⟩ ∈ newsLog ∧
      Log.Each (Decided newsNet newsTools) newsLog := by
  obtain ⟨s, hrun⟩ := newsRun
  exact ⟨by simp [newsLog], (robotsCache_agrees hrun).1⟩

end Utsuroi.RobotsCache
