import Utsuroi.Db.Monitors

/-!
# Sites and destinations are deleted

Each deletion is one batch.  The batch for a site takes along what belongs to the site alone; the one
for a destination takes along its subscriptions, but not what has been delivered to it.
-/

namespace Utsuroi.Monitors

open Relational

variable {Data : Type}

/-- Whether the last statement of a batch has deleted a row of the table, and the tables. -/
def deleted (table : Table) (statements : List (Statement Table Column Data))
    (db : Database Table Column Data) : Option (Bool × Database Table Column Data) :=
  (Transaction.batch (Statement.apply schema) schema.Consistent statements db).map fun result =>
    (decide ((result table).length < (db table).length), result)

def deleteSiteCascade (siteId : String) (db : Database Table Column Data) :
    Option (Bool × Database Table Column Data) :=
  deleted .sites
    [.delete .fetcherPolicyEntries fun db =>
        inSelection .fetcherPolicyEntriesFetcherPolicyId
          ((db .fetcherPolicies).filter (equals .fetcherPoliciesSiteId siteId)),
      .delete .fetcherPolicies fun _ => equals .fetcherPoliciesSiteId siteId,
      .delete .robotsPolicies fun _ => equals .robotsPoliciesSiteId siteId,
      .delete .subscriptions fun _ => equals .subscriptionsSiteId siteId,
      .delete .sites fun _ row => row.id == siteId] db

def deleteDestinationById (id : String) (db : Database Table Column Data) :
    Option (Bool × Database Table Column Data) :=
  deleted .destinations
    [.delete .subscriptions fun _ => equals .subscriptionsDestinationId id,
      .delete .destinations fun _ row => row.id == id] db

/-- What a request to delete comes to. -/
inductive DeleteResponse
  | deleted
  | notFound (code : String)
  | conflict (code : String)
  /-- an error that is not handled -/
  | failed
  deriving DecidableEq, Repr

/-- `DELETE /api/sites/:id`, whose sources are counted on other tables than it is deleted from. -/
def deleteSite (siteId : String) (counted db : Database Table Column Data) :
    DeleteResponse × Database Table Column Data :=
  if siteId ∈ (counted .sites).map Row.id then
    if ((counted .sources).filter (equals .sourcesSiteId siteId)).length ≠ 0 then
      (.conflict "site_has_sources", db)
    else
      match deleteSiteCascade siteId db with
      | none => (.failed, db)
      | some result => (.deleted, result.2)
  else (.notFound "site_not_found", db)

/-- `DELETE /api/destinations/:id` -/
def deleteDestination (id : String) (seen db : Database Table Column Data) :
    DeleteResponse × Database Table Column Data :=
  if id ∈ (seen .destinations).map Row.id then
    match deleteDestinationById id db with
    | none => (.conflict "destination_has_delivery_history", db)
    | some result => (.deleted, result.2)
  else (.notFound "destination_not_found", db)

end Utsuroi.Monitors
