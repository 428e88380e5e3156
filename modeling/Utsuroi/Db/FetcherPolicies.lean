import Mathlib.Data.List.Dedup
import Utsuroi.Fetch.Policy
import Utsuroi.Framework.Json
import Utsuroi.Framework.Transaction

/-!
# Stored fetcher policies

A policy is a row of its own with one row for each entry.  The allow list is not stored: it is the
set of the entries' fetchers.
-/

namespace Utsuroi

namespace FailureClass

def all : List FailureClass :=
  [.networkError, .timeout, .http5xx, .http429, .http403, .notFound, .authRequired,
    .blockedByRobots, .ssrfBlocked, .tooLarge, .captchaChallenge, .invalidContentType, .parseError,
    .internalError, .executorUnavailable]

def text : FailureClass → String
  | networkError => "network_error"
  | timeout => "timeout"
  | http5xx => "http_5xx"
  | http429 => "http_429"
  | http403 => "http_403"
  | notFound => "not_found"
  | authRequired => "auth_required"
  | blockedByRobots => "blocked_by_robots"
  | ssrfBlocked => "ssrf_blocked"
  | tooLarge => "too_large"
  | captchaChallenge => "captcha_challenge"
  | invalidContentType => "invalid_content_type"
  | parseError => "parse_error"
  | internalError => "internal_error"
  | executorUnavailable => "executor_unavailable"

def ofText? (text : String) : Option FailureClass := all.find? fun failure => failure.text == text

@[simp] theorem ofText?_text (failure : FailureClass) : ofText? failure.text = some failure := by
  cases failure <;> decide

end FailureClass

namespace FetcherPolicies

/-! ## Tables -/

structure PolicyRow where
  id : String
  siteId : String
  createdAt : String
  updatedAt : String
  deriving DecidableEq

structure PolicyEntryRow where
  id : String
  fetcherPolicyId : String
  fetcherId : String
  orderIndex : Nat
  proceedOn : Option String
  deriving DecidableEq

/-- `sites` and `fetchers` are the ids that may be referenced. -/
structure Tables where
  sites : List String
  fetchers : List String
  policies : List PolicyRow
  entries : List PolicyEntryRow
  deriving DecidableEq

/-- Primary keys, `UNIQUE` constraints and foreign keys. -/
structure Consistent (t : Tables) : Prop where
  policyIds : (t.policies.map PolicyRow.id).Nodup
  policySites : (t.policies.map PolicyRow.siteId).Nodup
  knownSites : ∀ row ∈ t.policies, row.siteId ∈ t.sites
  entryIds : (t.entries.map PolicyEntryRow.id).Nodup
  entryPolicies : ∀ row ∈ t.entries, row.fetcherPolicyId ∈ t.policies.map PolicyRow.id
  entryFetchers : ∀ row ∈ t.entries, row.fetcherId ∈ t.fetchers
  entryMembers : (t.entries.map fun row => (row.fetcherPolicyId, row.fetcherId)).Nodup
  entryPositions : (t.entries.map fun row => (row.fetcherPolicyId, row.orderIndex)).Nodup

instance : DecidablePred Consistent := fun t =>
  decidable_of_iff
    ((t.policies.map PolicyRow.id).Nodup ∧ (t.policies.map PolicyRow.siteId).Nodup ∧
      (∀ row ∈ t.policies, row.siteId ∈ t.sites) ∧ (t.entries.map PolicyEntryRow.id).Nodup ∧
      (∀ row ∈ t.entries, row.fetcherPolicyId ∈ t.policies.map PolicyRow.id) ∧
      (∀ row ∈ t.entries, row.fetcherId ∈ t.fetchers) ∧
      (t.entries.map fun row => (row.fetcherPolicyId, row.fetcherId)).Nodup ∧
      (t.entries.map fun row => (row.fetcherPolicyId, row.orderIndex)).Nodup)
    ⟨fun ⟨h₁, h₂, h₃, h₄, h₅, h₆, h₇, h₈⟩ => ⟨h₁, h₂, h₃, h₄, h₅, h₆, h₇, h₈⟩,
      fun ⟨h₁, h₂, h₃, h₄, h₅, h₆, h₇, h₈⟩ => ⟨h₁, h₂, h₃, h₄, h₅, h₆, h₇, h₈⟩⟩

/-- The tables of a database, whose constraints hold. -/
structure Database where
  tables : Tables
  consistent : Consistent tables

inductive Statement
  | updatePolicy (updatedAt id : String)
  | deleteEntries (policyId : String)
  | insertPolicy (row : PolicyRow)
  | insertEntry (row : PolicyEntryRow)
  deriving DecidableEq

def Statement.apply : Statement → Tables → Tables
  | .updatePolicy updatedAt id, t =>
    { t with policies := t.policies.map fun row =>
        if row.id = id then { row with updatedAt := updatedAt } else row }
  | .deleteEntries policyId, t =>
    { t with entries := t.entries.filter fun row => row.fetcherPolicyId != policyId }
  | .insertPolicy row, t => { t with policies := t.policies ++ [row] }
  | .insertEntry row, t => { t with entries := t.entries ++ [row] }

/-! ## JSON columns -/

def toJson (value : Option Json) : Option String := value.map fun json => String.ofList json.text

/-- `null` where the column is empty or holds no JSON. -/
def parseJson (value : Option String) : Json :=
  (value.bind fun text => Json.parse text.toList).getD .null

def proceedOnJson (failures : List FailureClass) : Json :=
  .array (failures.map fun failure => .string failure.text)

/-- The values of the column's type, `FailureClass[] | null`. -/
def readProceedOn : Json → Option (List FailureClass)
  | .array items => items.mapM fun item =>
    match item with
    | .string text => FailureClass.ofText? text
    | _ => none
  | _ => none

/-! ## Operations -/

def validateFetcherPolicy (policy : FetcherPolicy) : Except String Unit :=
  let orderIds := policy.orderList.map FetcherPolicyEntry.fetcherId
  if policy.allowList.length = 0 then .error "fetcher policy allowList must not be empty"
  else if policy.allowList.dedup.length ≠ policy.allowList.length then
    .error "fetcher policy allowList must not contain duplicates"
  else if orderIds.dedup.length ≠ orderIds.length then
    .error "fetcher policy orderList must not reference a fetcher more than once"
  else if orderIds.dedup.length ≠ policy.allowList.dedup.length ||
      orderIds.dedup.any fun id => !policy.allowList.contains id then
    .error "fetcher policy orderList must exactly match allowList membership"
  else .ok ()

/-- What a call finds outside the tables. -/
structure Env where
  now : String
  /-- what `newId` returns, call by call -/
  newIds : Nat → String
  /-- the database answers -/
  online : Bool

inductive PutError
  | invalid (message : String)
  | batchFailed
  deriving DecidableEq

/-- The rows of the entries from position `index` on. -/
def entryRows (policyId : String) (ids : Nat → String) :
    Nat → List FetcherPolicyEntry → List PolicyEntryRow
  | _, [] => []
  | index, entry :: rest =>
    { id := ids index
      fetcherPolicyId := policyId
      fetcherId := entry.fetcherId
      orderIndex := index
      proceedOn := toJson (entry.proceedOn.map proceedOnJson) } ::
      entryRows policyId ids (index + 1) rest

def putStatements (env : Env) (siteId : String) (policy : FetcherPolicy)
    (existing : Option PolicyRow) : List Statement :=
  match existing with
  | some row =>
    [.updatePolicy env.now row.id, .deleteEntries row.id] ++
      (entryRows row.id env.newIds 0 policy.orderList).map .insertEntry
  | none =>
    .insertPolicy ⟨env.newIds 0, siteId, env.now, env.now⟩ ::
      (entryRows (env.newIds 0) (fun index => env.newIds (index + 1)) 0 policy.orderList).map
        .insertEntry

def findPolicy (t : Tables) (siteId : String) : Option PolicyRow :=
  t.policies.find? fun row => row.siteId == siteId

/-- The answer, and the tables afterwards. -/
def putFetcherPolicy (env : Env) (siteId : String) (policy : FetcherPolicy) (t : Tables) :
    Except PutError Unit × Tables :=
  match validateFetcherPolicy policy with
  | .error message => (.error (.invalid message), t)
  | .ok () =>
    let statements := putStatements env siteId policy (findPolicy t siteId)
    match (if env.online then Transaction.batch Statement.apply Consistent statements t
      else none) with
    | none => (.error .batchFailed, t)
    | some stored => (.ok (), stored)

def decodeEntry (row : PolicyEntryRow) : FetcherPolicyEntry :=
  ⟨row.fetcherId, readProceedOn (parseJson row.proceedOn)⟩

def getFetcherPolicy (t : Tables) (siteId : String) : Option FetcherPolicy :=
  match findPolicy t siteId with
  | none => none
  | some policyRow =>
    let results := (t.entries.filter fun row => row.fetcherPolicyId == policyRow.id).mergeSort
      fun a b => decide (a.orderIndex ≤ b.orderIndex)
    let orderList := results.map decodeEntry
    some ⟨orderList.map FetcherPolicyEntry.fetcherId, orderList⟩

end FetcherPolicies

end Utsuroi
