import Utsuroi.Api.Auth
import Utsuroi.Framework.Log
import Utsuroi.Framework.Table

/-!
# What the middleware keeps to while requests overlap

A request goes on to the API only with a caller whose token a fetched key has signed.  The keys are
fetched one fetch at a time, and unknown key ids lead to no more than one in half a minute.
-/

namespace Utsuroi.AccessAuth

open Transition

/-! ## Tokens as they are written -/

section Written

/-- A segment of a token. -/
def encodedPart (value : Json) : List Char := Base64.unpadded '-' '_' (Utf8.encode value.text)

/-- The token of these parts. -/
def encodedToken (header claims : Json) (signature : List UInt8) : String :=
  String.ofList (['.'].intercalate
    [encodedPart header, encodedPart claims, Base64.unpadded '-' '_' signature])

private theorem letter_facts {sextet : Nat} (h : sextet < 64) :
    let c := Base64.letter '-' '_' sextet
    (c.isAlphanum = true ∨ c = '_' ∨ c = '-') ∧ c ≠ '.' ∧
      (if c = '-' then '+' else if c = '_' then '/' else c) = Base64.letter '+' '/' sextet := by
  have hall : ∀ n < 64, ((Base64.letter '-' '_' n).isAlphanum = true ∨
      Base64.letter '-' '_' n = '_' ∨ Base64.letter '-' '_' n = '-') ∧
      Base64.letter '-' '_' n ≠ '.' ∧
      (if Base64.letter '-' '_' n = '-' then '+' else
        if Base64.letter '-' '_' n = '_' then '/' else Base64.letter '-' '_' n) =
      Base64.letter '+' '/' n := by
    decide +kernel
  exact hall sextet h

private theorem mem_unpadded {bytes : List UInt8} {c : Char} (h : c ∈ Base64.unpadded '-' '_' bytes) :
    (c.isAlphanum = true ∨ c = '_' ∨ c = '-') ∧ c ≠ '.' := by
  obtain ⟨sextet, hsextet, rfl⟩ := List.mem_map.mp h
  have hfacts := letter_facts (Base64.sextetsOf_lt hsextet)
  exact ⟨hfacts.1, hfacts.2.1⟩

theorem base64UrlToBytes_unpadded (bytes : List UInt8) :
    base64UrlToBytes (Base64.unpadded '-' '_' bytes) = .ok bytes := by
  have hletters : ((Base64.unpadded '-' '_' bytes).all fun c =>
      c.isAlphanum || c = '_' || c = '-') = true := by
    rw [List.all_eq_true]
    intro c hc
    simpa [or_assoc] using (mem_unpadded hc).1
  have hstandard : (Base64.unpadded '-' '_' bytes).map (fun c =>
      if c = '-' then '+' else if c = '_' then '/' else c) = Base64.unpadded '+' '/' bytes := by
    rw [Base64.unpadded, Base64.unpadded, List.map_map]
    refine List.map_congr_left fun sextet hsextet => ?_
    exact (letter_facts (Base64.sextetsOf_lt hsextet)).2.2
  have hpadding : List.replicate ((4 - (Base64.unpadded '+' '/' bytes).length % 4) % 4) '=' =
      Base64.padding bytes := by
    rw [Base64.padding, Base64.unpadded, List.length_map, Base64.length_sextetsOf]
    have hrest : bytes.length % 3 = 0 ∨ bytes.length % 3 = 1 ∨ bytes.length % 3 = 2 := by omega
    congr 1
    omega
  rw [base64UrlToBytes, if_pos hletters]
  simp only [hstandard, hpadding, Base64.decode?_padded]

theorem parseJsonPart_encoded (members : List (String × Json)) :
    parseJsonPart (encodedPart (.object members)) = .ok members := by
  have hparse : Json.parse (RunnerApi.decodeText (Utf8.encode (Json.object members).text)) =
      some (.object members) := by
    rw [RunnerApi.decodeText_object, Json.parse_text]
  rw [parseJsonPart, encodedPart, base64UrlToBytes_unpadded]
  simp only [bind, Except.bind, hparse, Option.bind_some, Json.object?]
  rfl

/-- A token whose header names the algorithm and a key is read as it was written. -/
theorem parseToken_encoded {header : List (String × Json)} {kid : String} (claims : Json)
    (signature : List UInt8) (halg : Json.member? header "alg" = some (.string "RS256"))
    (hkid : Json.member? header "kid" = some (.string kid)) (hne : kid ≠ "") :
    parseToken (encodedToken (.object header) claims signature) =
      .ok ⟨encodedPart (.object header), encodedPart claims, Base64.unpadded '-' '_' signature, kid⟩ := by
  have hpoint : ∀ part ∈ [encodedPart (.object header), encodedPart claims,
      Base64.unpadded '-' '_' signature], '.' ∉ part := by
    intro part hpart hmem
    simp only [List.mem_cons, List.not_mem_nil, or_false] at hpart
    rcases hpart with rfl | rfl | rfl
    · exact (mem_unpadded hmem).2 rfl
    · exact (mem_unpadded hmem).2 rfl
    · exact (mem_unpadded hmem).2 rfl
  rw [parseToken, encodedToken, String.toList_ofList, List.splitOn_intercalate '.' hpoint (by simp)]
  simp only [parseJsonPart_encoded, bind, Except.bind, halg, hkid, Option.bind_some, Json.string?,
    require, if_true, Option.filter, hne, ne_eq, not_false_eq_true, decide_true]
  rfl

end Written

/-! ## What is seen -/

section Log

variable {Key : Type}

def AuthEffect.isOutcome (id : RequestId) : AuthEffect Key → Bool
  | .refused other _ => other = id
  | .admitted other _ _ _ => other = id
  | _ => false

def AuthEffect.isStart : AuthEffect Key → Bool
  | .fetchStarted _ => true
  | _ => false

def AuthEffect.isEnd : AuthEffect Key → Bool
  | .fetchEnded _ => true
  | _ => false

/-- How often a request is refused or goes on. -/
def outcomes (log : List (AuthEffect Key)) (id : RequestId) : Nat :=
  log.countP (AuthEffect.isOutcome id)

def fetchesStarted (log : List (AuthEffect Key)) : Nat := log.countP AuthEffect.isStart

def fetchesEnded (log : List (AuthEffect Key)) : Nat := log.countP AuthEffect.isEnd

def Inflight.isUnderWay : Inflight Key → Bool
  | .underWay => true
  | _ => false

variable (importKey : String → String → Option Key)
  (rsaVerify : Key → List UInt8 → List UInt8 → Bool) (config : AccessConfig)

/-- A request goes on only with a token that a key of its id has signed.  The key is of a set read no
longer before the request came than the sets are kept. -/
def Entitled (before : List (AuthEffect Key)) (e : AuthEffect Key) : Prop :=
  ∀ id request caller now, e = .admitted id request caller now →
    ∃ teamDomain aud arrivedAt cache key signature claims,
      config.team = some (teamDomain, aud) ∧ .received id request arrivedAt ∈ before ∧
        .keysRead cache ∈ before ∧ arrivedAt ≤ cache.fetchedAt + JWKS_TTL_MS ∧
        cache.keys.lookup request.token.kid = some key ∧
        base64UrlToBytes request.token.signatureSeg = .ok signature ∧
        rsaVerify key signature request.token.message = true ∧
        parseJsonPart request.token.payloadSeg = .ok claims ∧
        checkAccessClaims teamDomain aud claims (now / 1000 : Rat) = .ok () ∧
        resolveCaller claims config.ACCESS_CALLERS = .ok caller ∧
        (isRunnerCaller caller config.RUNNER_EXECUTORS = true →
          startsWith request.path "/api/runner/" = true)

/-- A key set that is read is what the fetch has just answered. -/
def Genuine (before : List (AuthEffect Key)) (e : AuthEffect Key) : Prop :=
  ∀ cache, e = .keysRead cache → ∃ response, before.getLast? = some (.fetchEnded response) ∧
    readCerts importKey response = some cache.keys

/-- A fetch starts half a minute after every earlier one, or when all sets are too old. -/
def Spaced (before : List (AuthEffect Key)) (e : AuthEffect Key) : Prop :=
  ∀ now, e = .fetchStarted now →
    (∀ earlier, .fetchStarted earlier ∈ before → earlier + JWKS_MIN_REFETCH_MS ≤ now) ∨
      ∀ cache, .keysRead cache ∈ before → cache.fetchedAt + JWKS_TTL_MS < now

/-- What holds of a log. -/
structure Proper (log : List (AuthEffect Key)) : Prop where
  entitled : Log.Each (Entitled rsaVerify config) log
  genuine : Log.Each (Genuine importKey) log
  spaced : Log.Each Spaced log

end Log

/-! ## The invariant -/

section Invariant

variable {Key : Type} (importKey : String → String → Option Key)
  (rsaVerify : Key → List UInt8 → List UInt8 → Bool) (config : AccessConfig)

/-- What is known of a request that waits. -/
def Waits (log : List (AuthEffect Key)) (id : RequestId) : Phase Key → Prop
  | .certs request _ => ∃ arrivedAt, .received id request arrivedAt ∈ log
  | .resumed request _ result => ∃ arrivedAt, .received id request arrivedAt ∈ log ∧
      ∀ cache, result = some cache →
        .keysRead cache ∈ log ∧ arrivedAt ≤ cache.fetchedAt + JWKS_TTL_MS
  | .signature request key => ∃ arrivedAt cache, .received id request arrivedAt ∈ log ∧
      .keysRead cache ∈ log ∧ arrivedAt ≤ cache.fetchedAt + JWKS_TTL_MS ∧
        cache.keys.lookup request.token.kid = some key

/-- What holds while a request, if any, is held by the code that runs. -/
structure Kept (times : List Int) (s : AuthState Key) (log : List (AuthEffect Key))
    (held : Option RequestId) : Prop where
  proper : Proper importKey rsaVerify config log
  counted : ∀ id, Table.count s.pending id + outcomes log id + (if held = some id then 1 else 0) =
    if id < s.arrived then 1 else 0
  fetches : fetchesStarted log = fetchesEnded log + if s.inflight.isUnderWay then 1 else 0
  refetched : ∀ t, .fetchStarted t ∈ log → t ≤ s.lastRefetchAt
  received : ∀ id request t, .received id request t ∈ log → t ∈ times
  started : ∀ t, .fetchStarted t ∈ log → t ∈ times
  read : ∀ cache, .keysRead cache ∈ log → cache.fetchedAt ∈ times
  newest : ∀ cache, .keysRead cache ∈ log →
    ∃ current, s.cache = some current ∧ cache.fetchedAt ≤ current.fetchedAt
  cached : ∀ cache, s.cache = some cache → .keysRead cache ∈ log
  settled : ∀ cache, s.inflight = .settled (some cache) →
    .keysRead cache ∈ log ∧ ∀ t ∈ times, t ≤ cache.fetchedAt
  waits : ∀ id phase, (id, phase) ∈ s.pending → Waits log id phase

variable {importKey rsaVerify config} {times : List Int} {s : AuthState Key}
  {log : List (AuthEffect Key)} {held : Option RequestId} {id : RequestId} {request : AccessRequest}
  {now : Int}

private theorem Waits.mono {longer : List (AuthEffect Key)} {phase : Phase Key}
    (h : Waits log id phase) (hlog : log ⊆ longer) : Waits longer id phase := by
  cases phase with
  | certs request retried =>
      obtain ⟨arrivedAt, hreceived⟩ := h
      exact ⟨arrivedAt, hlog hreceived⟩
  | resumed request retried result =>
      obtain ⟨arrivedAt, hreceived, hresult⟩ := h
      refine ⟨arrivedAt, hlog hreceived, fun cache hcache => ?_⟩
      exact ⟨hlog (hresult cache hcache).1, (hresult cache hcache).2⟩
  | signature request key =>
      obtain ⟨arrivedAt, cache, hreceived, hread, hfresh, hkey⟩ := h
      exact ⟨arrivedAt, cache, hlog hreceived, hlog hread, hfresh, hkey⟩

/-- An entry that no condition speaks about. -/
private theorem Proper.plain (h : Proper importKey rsaVerify config log) {e : AuthEffect Key}
    (hadmitted : ∀ id request caller now, e ≠ .admitted id request caller now)
    (hread : ∀ cache, e ≠ .keysRead cache) (hstarted : ∀ now, e ≠ .fetchStarted now) :
    Proper importKey rsaVerify config (log ++ [e]) where
  entitled := h.entitled.concat fun id request caller now heq =>
    absurd heq (hadmitted id request caller now)
  genuine := h.genuine.concat fun cache heq => absurd heq (hread cache)
  spaced := h.spaced.concat fun now heq => absurd heq (hstarted now)

/-- The times of the events go on, up to the time of the event that comes. -/
private theorem Kept.later (h : Kept importKey rsaVerify config times s log held) {now : Int}
    (hstill : ∀ result, s.inflight = .settled result → ∃ before ∈ times, now ≤ before) :
    Kept importKey rsaVerify config (now :: times) s log held where
  proper := h.proper
  counted := h.counted
  fetches := h.fetches
  refetched := h.refetched
  received id request t ht := List.mem_cons_of_mem _ (h.received id request t ht)
  started t ht := List.mem_cons_of_mem _ (h.started t ht)
  read cache hcache := List.mem_cons_of_mem _ (h.read cache hcache)
  newest := h.newest
  cached := h.cached
  settled cache hsettled := by
    obtain ⟨hread, hmax⟩ := h.settled cache hsettled
    obtain ⟨before, hbefore, hle⟩ := hstill _ hsettled
    exact ⟨hread, List.forall_mem_cons.mpr ⟨le_trans hle (hmax before hbefore), hmax⟩⟩
  waits := h.waits

private theorem outcomes_append (effects : List (AuthEffect Key)) (id : RequestId) :
    outcomes (log ++ effects) id = outcomes log id + outcomes effects id := List.countP_append

/-- An entry that tells nothing of fetches is added; it may be the end of the request held. -/
private theorem Kept.note (h : Kept importKey rsaVerify config times s log held) {e : AuthEffect Key}
    {held' : Option RequestId} (hproper : Proper importKey rsaVerify config (log ++ [e]))
    (hfetch : e.isStart = false ∧ e.isEnd = false ∧ ∀ cache, e ≠ .keysRead cache)
    (hreceived : ∀ id request t, e = .received id request t → t ∈ times)
    (hheld : ∀ other, outcomes [e] other + (if held' = some other then 1 else 0) =
      if held = some other then 1 else 0) :
    Kept importKey rsaVerify config times s (log ++ [e]) held' := by
  have hnoStart : ∀ t, e ≠ .fetchStarted t := by
    rintro t rfl
    exact absurd hfetch.1 (by simp [AuthEffect.isStart])
  have hold : ∀ other, other ∈ log ++ [e] → other ≠ e → other ∈ log := by
    intro other hother hne
    rcases List.mem_append.mp hother with hother | hother
    · exact hother
    · exact absurd (List.mem_singleton.mp hother) hne
  constructor
  case proper => exact hproper
  case counted =>
    intro other
    rw [outcomes_append, ← h.counted other, ← hheld other]
    omega
  case fetches =>
    have hfetches := h.fetches
    simpa [fetchesStarted, fetchesEnded, List.countP_append, hfetch.1, hfetch.2.1] using hfetches
  case refetched => exact fun t ht => h.refetched t (hold _ ht (hnoStart t).symm)
  case received =>
    intro id request t ht
    rcases List.mem_append.mp ht with ht | ht
    · exact h.received id request t ht
    · exact hreceived id request t (List.mem_singleton.mp ht).symm
  case started => exact fun t ht => h.started t (hold _ ht (hnoStart t).symm)
  case read => exact fun cache hcache => h.read cache (hold _ hcache (hfetch.2.2 cache).symm)
  case newest => exact fun cache hcache => h.newest cache (hold _ hcache (hfetch.2.2 cache).symm)
  case cached => exact fun cache hcache => List.mem_append_left _ (h.cached cache hcache)
  case settled =>
    intro cache hsettled
    exact ⟨List.mem_append_left _ (h.settled cache hsettled).1, (h.settled cache hsettled).2⟩
  case waits =>
    exact fun other phase hphase =>
      (h.waits other phase hphase).mono (List.subset_append_left _ _)

/-- A refusal is the end of the request that is held. -/
private theorem Kept.refuse (h : Kept importKey rsaVerify config times s log (some id))
    (err : AuthError) : Kept importKey rsaVerify config times s (log ++ [.refused id err]) none :=
  h.note (h.proper.plain (by simp) (by simp) (by simp))
    (by simp [AuthEffect.isStart, AuthEffect.isEnd]) (by simp)
    (by simp [outcomes, AuthEffect.isOutcome])

/-! ## Functions of the middleware -/

/-- A fetch starts at most where none is under way. -/
private theorem Kept.refresh (h : Kept importKey rsaVerify config times s log held)
    (hnow : now ∈ times) (hmax : ∀ t ∈ times, t ≤ now)
    (hdue : (∀ t, .fetchStarted t ∈ log → t + JWKS_MIN_REFETCH_MS ≤ now) ∨
      ∀ cache, .keysRead cache ∈ log → cache.fetchedAt + JWKS_TTL_MS < now) :
    Kept importKey rsaVerify config times (s.refresh now).1 (log ++ (s.refresh now).2) held := by
  unfold AuthState.refresh
  split
  · next hidle =>
      have hfetches := h.fetches
      rw [hidle] at hfetches
      refine ⟨⟨?_, ?_, ?_⟩, ?_, ?_, ?_, ?_, ?_, ?_, ?_, ?_, ?_, ?_⟩
      · exact h.proper.entitled.concat fun id request caller now heq => by simp at heq
      · exact h.proper.genuine.concat fun cache heq => by simp at heq
      · refine h.proper.spaced.concat fun at' heq => ?_
        obtain rfl := AuthEffect.fetchStarted.inj heq
        exact hdue
      · intro id
        have hcounted := h.counted id
        simpa [outcomes_append, outcomes, AuthEffect.isOutcome] using hcounted
      · simp [fetchesStarted, fetchesEnded, List.countP_append, AuthEffect.isStart, AuthEffect.isEnd,
          Inflight.isUnderWay] at hfetches ⊢
        omega
      · intro t ht
        rcases List.mem_append.mp ht with ht | ht
        · exact hmax t (h.started t ht)
        · rw [AuthEffect.fetchStarted.inj (List.mem_singleton.mp ht)]
      · intro id request t ht
        exact h.received id request t (by simpa using ht)
      · intro t ht
        rcases List.mem_append.mp ht with ht | ht
        · exact h.started t ht
        · rw [AuthEffect.fetchStarted.inj (List.mem_singleton.mp ht)]
          exact hnow
      · intro cache hcache
        exact h.read cache (by simpa using hcache)
      · intro cache hcache
        exact h.newest cache (by simpa using hcache)
      · intro cache hcache
        exact List.mem_append_left _ (h.cached cache hcache)
      · intro cache hsettled
        simp at hsettled
      · intro id phase hphase
        exact (h.waits id phase hphase).mono (List.subset_append_left _ _)
  · rw [List.append_nil]
    exact h

/-- The request that is held waits. -/
private theorem Kept.wait (h : Kept importKey rsaVerify config times s log (some id))
    {phase : Phase Key} (hwaits : Waits log id phase) :
    Kept importKey rsaVerify config times { s with pending := s.pending ++ [(id, phase)] } log none where
  proper := h.proper
  counted other := by
    have hcounted := h.counted other
    rw [Table.count, List.countP_append, List.countP_singleton]
    change Table.count s.pending other + _ + _ + _ = if other < s.arrived then 1 else 0
    rw [← hcounted]
    simp only [decide_eq_true_eq, Option.some.injEq, reduceCtorEq, if_false]
    omega
  fetches := h.fetches
  refetched := h.refetched
  received := h.received
  started := h.started
  read := h.read
  newest := h.newest
  cached := h.cached
  settled := h.settled
  waits other phase' hphase := by
    rcases List.mem_append.mp hphase with hphase | hphase
    · exact h.waits other phase' hphase
    · obtain ⟨rfl, rfl⟩ := Prod.mk.inj (List.mem_singleton.mp hphase)
      exact hwaits

private theorem Kept.awaitCerts (h : Kept importKey rsaVerify config times s log (some id))
    (hnow : now ∈ times) (hmax : ∀ t ∈ times, t ≤ now) (retried : Bool)
    (hdue : (∀ t, .fetchStarted t ∈ log → t + JWKS_MIN_REFETCH_MS ≤ now) ∨
      ∀ cache, .keysRead cache ∈ log → cache.fetchedAt + JWKS_TTL_MS < now)
    {arrivedAt : Int} (hreceived : .received id request arrivedAt ∈ log) :
    Kept importKey rsaVerify config times (s.awaitCerts id request retried now).1
      (log ++ (s.awaitCerts id request retried now).2) none :=
  (h.refresh hnow hmax hdue).wait ⟨arrivedAt, List.mem_append_left _ hreceived⟩

/-- The request that is held looks for its key in a set that is not too old for it. -/
private theorem Kept.lookKey (h : Kept importKey rsaVerify config times s log (some id))
    (hnow : now ∈ times) (hmax : ∀ t ∈ times, t ≤ now) (retried : Bool) {current : KeyCache Key}
    {arrivedAt : Int} (hreceived : .received id request arrivedAt ∈ log)
    (hread : .keysRead current ∈ log) (hfresh : arrivedAt ≤ current.fetchedAt + JWKS_TTL_MS) :
    Kept importKey rsaVerify config times (s.lookKey id request retried current now).1
      (log ++ (s.lookKey id request retried current now).2) none := by
  unfold AuthState.lookKey
  split
  · next key hkey =>
      split
      · exact h.refuse _
      · rw [List.append_nil]
        exact h.wait ⟨arrivedAt, current, hreceived, hread, hfresh, hkey⟩
  · split
    · next hretry =>
        refine h.awaitCerts hnow hmax true (.inl fun t ht => ?_) hreceived
        have hlast := h.refetched t ht
        omega
    · exact h.refuse _

private theorem Kept.findKey (h : Kept importKey rsaVerify config times s log (some id))
    (hnow : now ∈ times) (hmax : ∀ t ∈ times, t ≤ now)
    (hreceived : .received id request now ∈ log) :
    Kept importKey rsaVerify config times (s.findKey id request now).1
      (log ++ (s.findKey id request now).2) none := by
  unfold AuthState.findKey
  split
  · next hnone =>
      refine h.awaitCerts hnow hmax false (.inr fun cache hcache => ?_) hreceived
      obtain ⟨current, hcurrent, hle⟩ := h.newest cache hcache
      rw [hcurrent, Option.filter_eq_none_iff] at hnone
      have hold := hnone current rfl
      simp only [decide_eq_true_eq] at hold
      omega
  · next current hcurrent =>
      obtain ⟨hcache, hfresh⟩ := Option.filter_eq_some_iff.mp hcurrent
      simp only [decide_eq_true_eq] at hfresh
      exact h.lookKey hnow hmax false hreceived (h.cached current hcache) (by omega)

/-- A new request is held by the code that runs. -/
private theorem Kept.hold (h : Kept importKey rsaVerify config times s log none) :
    Kept importKey rsaVerify config times { s with arrived := s.arrived + 1 } log (some s.arrived) where
  proper := h.proper
  counted id := by
    have hcounted := h.counted id
    change Table.count s.pending id + _ + _ = if id < s.arrived + 1 then 1 else 0
    simp only [Option.some.injEq, reduceCtorEq, if_false] at hcounted ⊢
    grind
  fetches := h.fetches
  refetched := h.refetched
  received := h.received
  started := h.started
  read := h.read
  newest := h.newest
  cached := h.cached
  settled := h.settled
  waits := h.waits

private theorem Kept.receive (h : Kept importKey rsaVerify config times s log held)
    (hnow : now ∈ times) (id : RequestId) (request : AccessRequest) :
    Kept importKey rsaVerify config times s (log ++ [.received id request now]) held := by
  refine h.note (h.proper.plain (by simp) (by simp) (by simp))
    (by simp [AuthEffect.isStart, AuthEffect.isEnd]) ?_ (by simp [outcomes, AuthEffect.isOutcome])
  intro id' request' t heq
  rw [← (AuthEffect.received.inj heq).2.2]
  exact hnow

private theorem Kept.arrive (h : Kept importKey rsaVerify config times s log none)
    (hnow : now ∈ times) (hmax : ∀ t ∈ times, t ≤ now) (method path : String)
    (token : Option String) :
    Kept importKey rsaVerify config times (s.arrive config method path token now).1
      (log ++ (s.arrive config method path token now).2) none := by
  unfold AuthState.arrive
  simp only
  split
  · exact h.hold.refuse _
  · split
    · exact h.hold.refuse _
    · split
      · exact h.hold.refuse _
      · next token _ =>
          rw [List.append_cons]
          exact (h.hold.receive hnow _ _).findKey hnow hmax (by simp)

private theorem Kept.answerCerts (h : Kept importKey rsaVerify config times s log none)
    (hnow : now ∈ times) (hmax : ∀ t ∈ times, t ≤ now) (hunderWay : s.inflight = .underWay)
    (response : CertsResponse) :
    Kept importKey rsaVerify config times (s.answerCerts importKey response now).1
      (log ++ (s.answerCerts importKey response now).2) none := by
  have hfetches := h.fetches
  rw [hunderWay] at hfetches
  unfold AuthState.answerCerts
  split
  · refine ⟨h.proper.plain (by simp) (by simp) (by simp), ?_, ?_, ?_, ?_, ?_, ?_, ?_, ?_, ?_, ?_⟩
    · intro id
      have hcounted := h.counted id
      simpa [outcomes_append, outcomes, AuthEffect.isOutcome] using hcounted
    · simpa [fetchesStarted, fetchesEnded, List.countP_append, AuthEffect.isStart, AuthEffect.isEnd,
        Inflight.isUnderWay] using hfetches
    · intro t ht
      exact h.refetched t (by simpa using ht)
    · intro id request t ht
      exact h.received id request t (by simpa using ht)
    · intro t ht
      exact h.started t (by simpa using ht)
    · intro cache hcache
      exact h.read cache (by simpa using hcache)
    · intro cache hcache
      exact h.newest cache (by simpa using hcache)
    · intro cache hcache
      exact List.mem_append_left _ (h.cached cache hcache)
    · intro cache hsettled
      simp at hsettled
    · intro id phase hphase
      exact (h.waits id phase hphase).mono (List.subset_append_left _ _)
  · next keys hkeys =>
      have hmem : ∀ cache, .keysRead cache ∈ log ++ [.fetchEnded response, .keysRead ⟨keys, now⟩] →
          .keysRead cache ∈ log ∨ cache = ⟨keys, now⟩ := by
        intro cache hcache
        simpa using hcache
      refine ⟨⟨?_, ?_, ?_⟩, ?_, ?_, ?_, ?_, ?_, ?_, ?_, ?_, ?_, ?_⟩
      · exact h.proper.entitled.append (by simp [Entitled])
      · rw [List.append_cons]
        refine (h.proper.genuine.concat fun cache heq => by simp at heq).concat fun cache heq => ?_
        obtain rfl := AuthEffect.keysRead.inj heq
        exact ⟨response, List.getLast?_concat, hkeys⟩
      · exact h.proper.spaced.append (by simp [Spaced])
      · intro id
        have hcounted := h.counted id
        simpa [outcomes_append, outcomes, AuthEffect.isOutcome] using hcounted
      · simpa [fetchesStarted, fetchesEnded, List.countP_append, List.countP_cons,
          AuthEffect.isStart, AuthEffect.isEnd, Inflight.isUnderWay] using hfetches
      · intro t ht
        exact h.refetched t (by simpa using ht)
      · intro id request t ht
        exact h.received id request t (by simpa using ht)
      · intro t ht
        exact h.started t (by simpa using ht)
      · intro cache hcache
        rcases hmem cache hcache with hcache | rfl
        · exact h.read cache hcache
        · exact hnow
      · intro cache hcache
        refine ⟨_, rfl, ?_⟩
        rcases hmem cache hcache with hcache | rfl
        · exact hmax _ (h.read cache hcache)
        · exact le_refl _
      · intro cache hcache
        obtain rfl := Option.some.inj hcache
        simp
      · intro cache hsettled
        obtain rfl := Option.some.inj (Inflight.settled.inj hsettled)
        exact ⟨by simp, hmax⟩
      · intro id phase hphase
        exact (h.waits id phase hphase).mono (List.subset_append_left _ _)

private theorem Kept.clear (h : Kept importKey rsaVerify config times s log none)
    {result : Option (KeyCache Key)} (hsettled : s.inflight = .settled result) :
    Kept importKey rsaVerify config times (s.clear result) log none where
  proper := h.proper
  counted id := by
    have hcount : Table.count (s.clear result).pending id = Table.count s.pending id := by
      rw [AuthState.clear, Table.count, List.countP_map]
      refine List.countP_congr fun entry _ => ?_
      simp only [Function.comp_apply]
      split <;> rfl
    rw [hcount]
    exact h.counted id
  fetches := by
    have hfetches := h.fetches
    rw [hsettled] at hfetches
    exact hfetches
  refetched := h.refetched
  received := h.received
  started := h.started
  read := h.read
  newest := h.newest
  cached := h.cached
  settled cache hcache := by simp [AuthState.clear] at hcache
  waits id phase hphase := by
    obtain ⟨⟨id', waiting⟩, hentry, heq⟩ := List.mem_map.mp hphase
    have hwaits := h.waits id' waiting hentry
    cases waiting with
    | certs request retried =>
        obtain ⟨rfl, rfl⟩ := Prod.mk.inj heq
        obtain ⟨arrivedAt, hreceived⟩ := hwaits
        refine ⟨arrivedAt, hreceived, fun cache hresult => ?_⟩
        rw [hresult] at hsettled
        obtain ⟨hread, hmax⟩ := h.settled cache hsettled
        have hbefore := hmax arrivedAt (h.received _ _ _ hreceived)
        exact ⟨hread, by unfold JWKS_TTL_MS; omega⟩
    | resumed request retried result' =>
        obtain ⟨rfl, rfl⟩ := Prod.mk.inj heq
        exact hwaits
    | signature request key =>
        obtain ⟨rfl, rfl⟩ := Prod.mk.inj heq
        exact hwaits

private theorem Kept.nodup (h : Kept importKey rsaVerify config times s log none) :
    (s.pending.map Prod.fst).Nodup := by
  refine Table.nodup_of_count fun id => ?_
  have hcounted := h.counted id
  split at hcounted <;> split at hcounted <;> omega

/-- A request that waited is held again. -/
private theorem Kept.take (h : Kept importKey rsaVerify config times s log none) {phase : Phase Key}
    (hwaits : s.pending.lookup id = some phase) :
    Kept importKey rsaVerify config times (s.drop id) log (some id) ∧ Waits log id phase := by
  refine ⟨⟨h.proper, fun other => ?_, h.fetches, h.refetched, h.received, h.started, h.read, h.newest, h.cached,
    h.settled, fun other phase' hphase => ?_⟩, h.waits id phase (Table.mem_of_lookup hwaits)⟩
  · have hcounted := h.counted other
    have hothers := Table.count_others h.nodup hwaits other
    change Table.count (Table.others s.pending id) other + _ + _ = _
    simp only [Option.some.injEq, reduceCtorEq, if_false] at hcounted ⊢
    change _ = if other < s.arrived then 1 else 0
    omega
  · exact h.waits other phase' (List.mem_of_mem_filter hphase)

private theorem Kept.resume (h : Kept importKey rsaVerify config times s log none)
    (hnow : now ∈ times) (hmax : ∀ t ∈ times, t ≤ now) {retried : Bool}
    {result : Option (KeyCache Key)}
    (hwaits : s.pending.lookup id = some (.resumed request retried result)) :
    Kept importKey rsaVerify config times (s.resume id request retried result now).1
      (log ++ (s.resume id request retried result now).2) none := by
  obtain ⟨hheld, arrivedAt, hat, hresult⟩ := h.take hwaits
  unfold AuthState.resume
  cases result with
  | none => exact hheld.refuse _
  | some current =>
      obtain ⟨hread, hfresh⟩ := hresult current rfl
      exact hheld.lookKey hnow hmax retried hat hread hfresh

theorem judge_ok {teamDomain aud caller : String}
    (h : judge config teamDomain aud request now = .ok caller) :
    ∃ claims, parseJsonPart request.token.payloadSeg = .ok claims ∧
      checkAccessClaims teamDomain aud claims (now / 1000 : Rat) = .ok () ∧
      resolveCaller claims config.ACCESS_CALLERS = .ok caller ∧
      (isRunnerCaller caller config.RUNNER_EXECUTORS = true →
        startsWith request.path "/api/runner/" = true) := by
  unfold judge at h
  simp only [bind, Except.bind, pure, Except.pure] at h
  split at h
  · exact absurd h (by simp)
  next claims hclaims =>
    split at h
    · exact absurd h (by simp)
    next hcheck =>
      split at h
      · exact absurd h (by simp)
      next resolved hresolved =>
        split at h
        · exact absurd h (by simp)
        next hconfined =>
          obtain rfl := Except.ok.inj h
          refine ⟨claims, hclaims, hcheck, hresolved, fun hrunner => ?_⟩
          by_contra hpath
          simp [require, hrunner, hpath] at hconfined

/-- The request that is held goes on, for the reasons it must have. -/
private theorem Kept.goOn (h : Kept importKey rsaVerify config times s log (some id))
    {caller : String} (hentitled : Entitled rsaVerify config log (.admitted id request caller now)) :
    Kept importKey rsaVerify config times s (log ++ [.admitted id request caller now]) none :=
  h.note ⟨h.proper.entitled.concat hentitled, h.proper.genuine.concat (by simp [Genuine]),
      h.proper.spaced.concat (by simp [Spaced])⟩
    (by simp [AuthEffect.isStart, AuthEffect.isEnd]) (by simp)
    (by simp [outcomes, AuthEffect.isOutcome])

private theorem Kept.finish (h : Kept importKey rsaVerify config times s log none) {key : Key}
    (hwaits : s.pending.lookup id = some (.signature request key)) :
    Kept importKey rsaVerify config times (s.finish rsaVerify config id request key now).1
      (log ++ (s.finish rsaVerify config id request key now).2) none := by
  obtain ⟨hheld, arrivedAt, cache, hreceived, hread, hfresh, hkey⟩ := h.take hwaits
  unfold AuthState.finish
  split
  · next teamDomain aud signature hteam hsignature =>
      split
      · next hverified =>
          split
          · exact hheld.refuse _
          · next caller hjudge =>
              obtain ⟨claims, hclaims, hcheck, hcaller, hconfined⟩ := judge_ok hjudge
              have hentitled : ∀ before : List (AuthEffect Key), log ⊆ before →
                  Entitled rsaVerify config before (.admitted id request caller now) := by
                rintro before hbefore id' request' caller' now' heq
                obtain ⟨rfl, rfl, rfl, rfl⟩ := AuthEffect.admitted.inj heq
                exact ⟨teamDomain, aud, arrivedAt, cache, key, signature, claims, hteam,
                  hbefore hreceived, hbefore hread, hfresh, hkey, hsignature, hverified, hclaims,
                  hcheck, hcaller, hconfined⟩
              split
              · rw [List.singleton_append, List.append_cons]
                refine Kept.goOn ?_ (hentitled _ (List.subset_append_left _ _))
                exact hheld.note (hheld.proper.plain (by simp) (by simp) (by simp))
                  (by simp [AuthEffect.isStart, AuthEffect.isEnd]) (by simp)
                  (by simp [outcomes, AuthEffect.isOutcome])
              · exact hheld.goOn (hentitled _ (List.Subset.refl _))
      · exact hheld.refuse _
  · exact hheld.refuse _

/-! ## Runs -/

variable {es : List AuthEvent} {e : AuthEvent} {s' : AuthState Key}
  {effects : List (AuthEffect Key)}

theorem Kept.step (h : Kept importKey rsaVerify config times s log none)
    (hnow : ∀ now, e.time = some now → now ∈ times ∧ ∀ t ∈ times, t ≤ now)
    (hstep : s.authStep importKey rsaVerify config e = some (s', effects)) :
    Kept importKey rsaVerify config times s' (log ++ effects) none := by
  cases e with
  | arrives method path token now =>
      obtain ⟨hmem, hmax⟩ := hnow now rfl
      have hkept := h.arrive hmem hmax method path token
      rwa [Option.some.inj hstep] at hkept
  | certsAnswered response now =>
      obtain ⟨hmem, hmax⟩ := hnow now rfl
      simp only [AuthState.authStep] at hstep
      split at hstep
      · next hunderWay =>
          have hkept := h.answerCerts hmem hmax hunderWay response
          rwa [Option.some.inj hstep] at hkept
      · exact absurd hstep (by simp)
  | cleared =>
      simp only [AuthState.authStep] at hstep
      split at hstep
      · next result hsettled =>
          obtain ⟨rfl, rfl⟩ := Prod.mk.inj (Option.some.inj hstep)
          rw [List.append_nil]
          exact h.clear hsettled
      · exact absurd hstep (by simp)
  | resumes id now =>
      obtain ⟨hmem, hmax⟩ := hnow now rfl
      simp only [AuthState.authStep] at hstep
      split at hstep
      · next request retried result hwaits =>
          have hkept := h.resume hmem hmax hwaits
          rwa [Option.some.inj hstep] at hkept
      · exact absurd hstep (by simp)
  | signatureChecked id now =>
      simp only [AuthState.authStep] at hstep
      split at hstep
      · next request key hwaits =>
          have hkept := @Kept.finish _ _ _ _ _ _ _ _ _ now h _ hwaits
          rwa [Option.some.inj hstep] at hkept
      · exact absurd hstep (by simp)

private theorem kept_init : Kept importKey rsaVerify config [] (.init : AuthState Key) [] none where
  proper := ⟨Log.each_nil, Log.each_nil, Log.each_nil⟩
  counted id := by simp [AuthState.init, Table.count, outcomes]
  fetches := rfl
  refetched := by simp
  received := by simp
  started := by simp
  read := by simp
  newest := by simp
  cached := by simp [AuthState.init]
  settled := by simp [AuthState.init]
  waits := by simp [AuthState.init]

def timesOf (es : List AuthEvent) : List Int := es.filterMap AuthEvent.time

private theorem mem_timesOf {t : Int} : t ∈ timesOf es ↔ ∃ e ∈ es, e.time = some t :=
  List.mem_filterMap

theorem run_kept
    (h : (AuthState.middleware importKey rsaVerify config).Run (clockForward Key) es (s, log)) :
    Kept importKey rsaVerify config (timesOf es) s log none := by
  refine h.invariant (I := fun es state =>
    Kept importKey rsaVerify config (timesOf es) state.1 state.2 none) ?_ ?_
  · rintro _ rfl
    exact kept_init
  · rintro past before e after - hkept ⟨effects, hstep, hlog⟩ hclock
    rw [hlog]
    cases htime : e.time with
    | none =>
        have htimes : timesOf (e :: past) = timesOf past := by simp [timesOf, htime]
        rw [htimes]
        exact hkept.step (by simp [htime]) hstep
    | some now =>
        obtain ⟨hforward, hstill⟩ := hclock now htime
        have htimes : timesOf (e :: past) = now :: timesOf past := by simp [timesOf, htime]
        rw [htimes]
        refine (@Kept.later _ _ _ _ _ _ _ _ hkept now fun result hresult => ?_).step ?_ hstep
        · obtain ⟨earlier, hearlier, at', hat, hle⟩ := hstill result hresult
          exact ⟨at', mem_timesOf.mpr ⟨earlier, hearlier, hat⟩, hle⟩
        · intro now' heq
          obtain rfl : now = now' := Option.some.inj (htime.symm.trans heq)
          refine ⟨List.mem_cons_self, List.forall_mem_cons.mpr ⟨le_refl _, fun t ht => ?_⟩⟩
          obtain ⟨earlier, hearlier, hat⟩ := mem_timesOf.mp ht
          exact hforward earlier hearlier t hat

/-- However the requests overlap: one goes on only with a token that a genuine, fresh key has signed
for a caller of its path, each is refused or goes on once or still waits, and the keys are fetched by
one fetch at a time, half a minute apart unless every set is too old. -/
theorem access_safe
    (h : (AuthState.middleware importKey rsaVerify config).Run (clockForward Key) es (s, log)) :
    Log.Each (Entitled rsaVerify config) log ∧ Log.Each (Genuine importKey) log ∧
      Log.Each Spaced log ∧
      (fetchesStarted log = fetchesEnded log ∨ fetchesStarted log = fetchesEnded log + 1) ∧
      ∀ id, Table.count s.pending id + outcomes log id = if id < s.arrived then 1 else 0 := by
  have hkept := run_kept h
  refine ⟨hkept.proper.entitled, hkept.proper.genuine, hkept.proper.spaced, ?_, fun id => ?_⟩
  · have hfetches := hkept.fetches
    split at hfetches
    · exact .inr hfetches
    · exact .inl hfetches
  · simpa using hkept.counted id

end Invariant

/-! A request that waits for the first fetch of the keys and goes on with what it brings. -/

def sampleAccess : AccessConfig := ⟨some "a.example", some "app", none, none⟩

def sampleHeader : List (String × Json) := [("alg", .string "RS256"), ("kid", .string "k1")]

def sampleClaims : List (String × Json) :=
  [("iss", .string "https://a.example"), ("aud", .array [.string "app"]), ("exp", .int 10),
    ("email", .string "a@b.example")]

def sampleToken : AccessToken :=
  ⟨encodedPart (.object sampleHeader), encodedPart (.object sampleClaims),
    Base64.unpadded '-' '_' [1, 2, 3], "k1"⟩

def sampleRequest : AccessRequest := ⟨"POST", "/api/sites", sampleToken⟩

def sampleCerts : CertsResponse :=
  some (200, some (.object [("keys", .array [.object [("kty", .string "RSA"), ("kid", .string "k1"),
    ("n", .string "q83v"), ("e", .string "AQAB")]])]))

/-- A key is its modulus and its exponent. -/
def sampleImport (n e : String) : Option (String × String) := some (n, e)

def sampleVerify (_ : String × String) (signature _ : List UInt8) : Bool := signature = [1, 2, 3]

def sampleKeys : KeyCache (String × String) := ⟨[("k1", "q83v", "AQAB")], 2000⟩

def sampleLog : List (AuthEffect (String × String)) :=
  [.received 0 sampleRequest 1000, .fetchStarted 1000, .fetchEnded sampleCerts, .keysRead sampleKeys,
    .mutation 0 "user:a@b.example" "POST" "/api/sites",
    .admitted 0 sampleRequest "user:a@b.example" 3000]

private theorem sampleTeam : sampleAccess.team = some ("a.example", "app") := by decide +kernel

private theorem sampleArrival :
    AuthState.authStep sampleImport sampleVerify sampleAccess .init (.arrives "POST" "/api/sites"
      (some (encodedToken (.object sampleHeader) (.object sampleClaims) [1, 2, 3])) 1000) =
      some (⟨none, 1000, .underWay, 1, [(0, .certs sampleRequest false)]⟩,
        [.received 0 sampleRequest 1000, .fetchStarted 1000]) := by
  have hparse : parseToken (encodedToken (.object sampleHeader) (.object sampleClaims) [1, 2, 3]) =
      .ok sampleToken := parseToken_encoded _ _ rfl rfl (by decide)
  have hsome : encodedToken (.object sampleHeader) (.object sampleClaims) [1, 2, 3] ≠ "" := by
    intro h
    rw [h] at hparse
    exact absurd hparse (by simp [parseToken])
  simp only [AuthState.authStep, AuthState.arrive, sampleTeam, Option.filter, hsome, ne_eq,
    not_false_eq_true, decide_true, if_true, hparse]
  rfl

private theorem sampleJudged :
    judge sampleAccess "a.example" "app" sampleRequest 3000 = .ok "user:a@b.example" := by
  have hclaims : parseJsonPart sampleRequest.token.payloadSeg = .ok sampleClaims :=
    parseJsonPart_encoded sampleClaims
  have hcheck : checkAccessClaims "a.example" "app" sampleClaims (3000 / 1000 : Rat) = .ok () := by
    decide +kernel
  have hcaller : resolveCaller sampleClaims none = .ok "user:a@b.example" := by decide +kernel
  have hrunner : isRunnerCaller "user:a@b.example" none = false := by decide +kernel
  unfold judge
  rw [hclaims]
  simp only [bind, Except.bind, Int.cast_ofNat, hcheck, sampleAccess, hcaller, hrunner]
  rfl

private theorem middleware_next {Key : Type} {importKey : String → String → Option Key}
    {rsaVerify : Key → List UInt8 → List UInt8 → Bool} {config : AccessConfig}
    {es : List AuthEvent} {e : AuthEvent} {s s' : AuthState Key}
    {log effects : List (AuthEffect Key)}
    (h : (AuthState.middleware importKey rsaVerify config).Run (clockForward Key) es (s, log))
    (hstep : s.authStep importKey rsaVerify config e = some (s', effects))
    (hclock : clockForward Key es (s, log) e) :
    (AuthState.middleware importKey rsaVerify config).Run (clockForward Key) (e :: es)
      (s', log ++ effects) :=
  .next h ⟨effects, hstep, rfl⟩ hclock

private theorem sampleRun :
    (AuthState.middleware sampleImport sampleVerify sampleAccess).Run (clockForward _)
      [.signatureChecked 0 3000, .resumes 0 2000, .cleared, .certsAnswered sampleCerts 2000,
        .arrives "POST" "/api/sites"
          (some (encodedToken (.object sampleHeader) (.object sampleClaims) [1, 2, 3])) 1000]
      (⟨some sampleKeys, 1000, .idle, 1, []⟩, sampleLog) := by
  have hanswered : AuthState.authStep sampleImport sampleVerify sampleAccess
      ⟨none, 1000, .underWay, 1, [(0, .certs sampleRequest false)]⟩
      (.certsAnswered sampleCerts 2000) =
      some (⟨some sampleKeys, 1000, .settled (some sampleKeys), 1,
        [(0, .certs sampleRequest false)]⟩, [.fetchEnded sampleCerts, .keysRead sampleKeys]) := by
    have hkeys : readCerts sampleImport sampleCerts = some sampleKeys.keys := by decide +kernel
    simp only [AuthState.authStep, AuthState.answerCerts, hkeys]
    rfl
  have hresumed : AuthState.authStep sampleImport sampleVerify sampleAccess
      ⟨some sampleKeys, 1000, .idle, 1, [(0, .resumed sampleRequest false (some sampleKeys))]⟩
      (.resumes 0 2000) =
      some (⟨some sampleKeys, 1000, .idle, 1, [(0, .signature sampleRequest ("q83v", "AQAB"))]⟩,
        []) := by
    have hsignature : base64UrlToBytes sampleRequest.token.signatureSeg = .ok [1, 2, 3] :=
      base64UrlToBytes_unpadded [1, 2, 3]
    have hkey : sampleKeys.keys.lookup sampleRequest.token.kid = some ("q83v", "AQAB") := rfl
    simp only [AuthState.authStep, List.lookup_cons_self, AuthState.resume,
      AuthState.lookKey, hkey, hsignature]
    rfl
  have hfinished : AuthState.authStep sampleImport sampleVerify sampleAccess
      ⟨some sampleKeys, 1000, .idle, 1, [(0, .signature sampleRequest ("q83v", "AQAB"))]⟩
      (.signatureChecked 0 3000) =
      some (⟨some sampleKeys, 1000, .idle, 1, []⟩,
        [.mutation 0 "user:a@b.example" "POST" "/api/sites",
          .admitted 0 sampleRequest "user:a@b.example" 3000]) := by
    have hsignature : base64UrlToBytes sampleRequest.token.signatureSeg = .ok [1, 2, 3] :=
      base64UrlToBytes_unpadded [1, 2, 3]
    simp only [AuthState.authStep, List.lookup_cons_self, AuthState.finish, sampleTeam,
      hsignature, sampleVerify, decide_true, if_true, sampleJudged]
    rfl
  have hclock : ∀ (past : List AuthEvent) (s : AuthState (String × String))
      (log : List (AuthEffect (String × String))) (e : AuthEvent),
      (∀ now ∈ e.time, ∀ earlier ∈ past, ∀ before ∈ earlier.time, before ≤ now) →
      (∀ result, s.inflight ≠ .settled result) → clockForward _ past (s, log) e :=
    fun past s log e hforward hidle now hnow =>
      ⟨hforward now hnow, fun result hresult => absurd hresult (hidle result)⟩
  have hfirst := middleware_next (.start rfl) sampleArrival
    (hclock [] .init [] _ (by simp) (by simp [AuthState.init]))
  have hsecond := middleware_next hfirst hanswered
    (hclock _ _ _ _ (by simp [AuthEvent.time]) (by simp))
  have hcleared : AuthState.authStep sampleImport sampleVerify sampleAccess
      ⟨some sampleKeys, 1000, .settled (some sampleKeys), 1, [(0, .certs sampleRequest false)]⟩
      .cleared =
      some (⟨some sampleKeys, 1000, .idle, 1, [(0, .resumed sampleRequest false (some sampleKeys))]⟩,
        []) := rfl
  have hthird := middleware_next hsecond hcleared (by simp [clockForward, AuthEvent.time])
  have hfourth := middleware_next hthird hresumed
    (hclock _ _ _ _ (by simp [AuthEvent.time]) (by simp))
  exact middleware_next hfourth hfinished (hclock _ _ _ _ (by simp [AuthEvent.time]) (by simp))

/-- The request of the sample goes on. -/
theorem access_safe_sample :
    .admitted 0 sampleRequest "user:a@b.example" 3000 ∈ sampleLog ∧
      Log.Each (Entitled sampleVerify sampleAccess) sampleLog ∧
        Log.Each (Genuine sampleImport) sampleLog ∧ Log.Each Spaced sampleLog :=
  ⟨by simp [sampleLog], (access_safe sampleRun).1, (access_safe sampleRun).2.1,
    (access_safe sampleRun).2.2.1⟩

end Utsuroi.AccessAuth
