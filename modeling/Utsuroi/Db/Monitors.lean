import Utsuroi.Framework.Relational

/-!
# The deletion of a monitor

All tables with foreign keys, as the migrations declare them, and the batch that deletes a monitor
with its history.
-/

namespace Utsuroi.Monitors

open Relational

inductive Table
  | sites
  | sources
  | monitors
  | executors
  | fetchers
  | fetcherPolicies
  | fetcherPolicyEntries
  | targets
  | checkJobs
  | checkAttempts
  | snapshots
  | changes
  | destinations
  | subscriptions
  | deliveries
  | robotsPolicies
  | robotsEvaluations
  deriving DecidableEq

inductive Column
  | sourcesSiteId
  | monitorsSiteId
  | monitorsSourceId
  | monitorsRobotsEvaluationId
  | fetchersExecutorId
  | fetcherPoliciesSiteId
  | fetcherPolicyEntriesFetcherPolicyId
  | fetcherPolicyEntriesFetcherId
  | targetsMonitorId
  | checkJobsMonitorId
  | checkAttemptsCheckJobId
  | checkAttemptsTargetId
  | checkAttemptsFetcherId
  | checkAttemptsSnapshotId
  | snapshotsMonitorId
  | snapshotsTargetId
  | snapshotsCheckAttemptId
  | changesMonitorId
  | changesTargetId
  | changesPreviousSnapshotId
  | changesSnapshotId
  | subscriptionsDestinationId
  | subscriptionsSiteId
  | subscriptionsMonitorId
  | deliveriesChangeId
  | deliveriesDestinationId
  | robotsPoliciesSiteId
  deriving DecidableEq

/-- `table` has the column, which `references` a table and may be empty if `nullable`. -/
structure ForeignKey where
  table : Table
  references : Table
  nullable : Bool

def foreignKey : Column → ForeignKey
  | .sourcesSiteId => ⟨.sources, .sites, false⟩
  | .monitorsSiteId => ⟨.monitors, .sites, false⟩
  | .monitorsSourceId => ⟨.monitors, .sources, false⟩
  | .monitorsRobotsEvaluationId => ⟨.monitors, .robotsEvaluations, true⟩
  | .fetchersExecutorId => ⟨.fetchers, .executors, false⟩
  | .fetcherPoliciesSiteId => ⟨.fetcherPolicies, .sites, false⟩
  | .fetcherPolicyEntriesFetcherPolicyId => ⟨.fetcherPolicyEntries, .fetcherPolicies, false⟩
  | .fetcherPolicyEntriesFetcherId => ⟨.fetcherPolicyEntries, .fetchers, false⟩
  | .targetsMonitorId => ⟨.targets, .monitors, false⟩
  | .checkJobsMonitorId => ⟨.checkJobs, .monitors, false⟩
  | .checkAttemptsCheckJobId => ⟨.checkAttempts, .checkJobs, false⟩
  | .checkAttemptsTargetId => ⟨.checkAttempts, .targets, false⟩
  | .checkAttemptsFetcherId => ⟨.checkAttempts, .fetchers, false⟩
  | .checkAttemptsSnapshotId => ⟨.checkAttempts, .snapshots, true⟩
  | .snapshotsMonitorId => ⟨.snapshots, .monitors, false⟩
  | .snapshotsTargetId => ⟨.snapshots, .targets, false⟩
  | .snapshotsCheckAttemptId => ⟨.snapshots, .checkAttempts, true⟩
  | .changesMonitorId => ⟨.changes, .monitors, false⟩
  | .changesTargetId => ⟨.changes, .targets, true⟩
  | .changesPreviousSnapshotId => ⟨.changes, .snapshots, true⟩
  | .changesSnapshotId => ⟨.changes, .snapshots, true⟩
  | .subscriptionsDestinationId => ⟨.subscriptions, .destinations, false⟩
  | .subscriptionsSiteId => ⟨.subscriptions, .sites, true⟩
  | .subscriptionsMonitorId => ⟨.subscriptions, .monitors, true⟩
  | .deliveriesChangeId => ⟨.deliveries, .changes, false⟩
  | .deliveriesDestinationId => ⟨.deliveries, .destinations, false⟩
  | .robotsPoliciesSiteId => ⟨.robotsPolicies, .sites, false⟩

def schema : Schema Table Column where
  tables := [.sites, .sources, .monitors, .executors, .fetchers, .fetcherPolicies,
    .fetcherPolicyEntries, .targets, .checkJobs, .checkAttempts, .snapshots, .changes,
    .destinations, .subscriptions, .deliveries, .robotsPolicies, .robotsEvaluations]
  columns := [.sourcesSiteId, .monitorsSiteId, .monitorsSourceId, .monitorsRobotsEvaluationId,
    .fetchersExecutorId, .fetcherPoliciesSiteId, .fetcherPolicyEntriesFetcherPolicyId,
    .fetcherPolicyEntriesFetcherId, .targetsMonitorId, .checkJobsMonitorId,
    .checkAttemptsCheckJobId, .checkAttemptsTargetId, .checkAttemptsFetcherId,
    .checkAttemptsSnapshotId, .snapshotsMonitorId, .snapshotsTargetId, .snapshotsCheckAttemptId,
    .changesMonitorId, .changesTargetId, .changesPreviousSnapshotId, .changesSnapshotId,
    .subscriptionsDestinationId, .subscriptionsSiteId, .subscriptionsMonitorId,
    .deliveriesChangeId, .deliveriesDestinationId, .robotsPoliciesSiteId]
  table c := (foreignKey c).table
  references c := (foreignKey c).references
  nullable c := (foreignKey c).nullable

theorem mem_tables (t : Table) : t ∈ schema.tables := by
  cases t <;> decide

theorem mem_columns (c : Column) : c ∈ schema.columns := by
  cases c <;> decide

variable {Data : Type}

/-- `… = ?`, which no `NULL` meets. -/
def equals (c : Column) (value : String) (row : Row Column Data) : Bool := row.key c == some value

/-- `… IN (SELECT id FROM … WHERE …)` -/
def inSelection (c : Column) (selected : List (Row Column Data)) (row : Row Column Data) : Bool :=
  (row.key c).any fun key => (selected.map Row.id).contains key

def cascade (monitorId : String) : List (Statement Table Column Data) :=
  [.clear .snapshotsCheckAttemptId fun _ => equals .snapshotsMonitorId monitorId,
    .delete .deliveries fun db =>
      inSelection .deliveriesChangeId ((db .changes).filter (equals .changesMonitorId monitorId)),
    .delete .checkAttempts fun db =>
      inSelection .checkAttemptsCheckJobId
        ((db .checkJobs).filter (equals .checkJobsMonitorId monitorId)),
    .delete .changes fun _ => equals .changesMonitorId monitorId,
    .delete .checkJobs fun _ => equals .checkJobsMonitorId monitorId,
    .delete .snapshots fun _ => equals .snapshotsMonitorId monitorId,
    .delete .targets fun _ => equals .targetsMonitorId monitorId,
    .delete .subscriptions fun _ => equals .subscriptionsMonitorId monitorId,
    .delete .monitors fun _ row => row.id == monitorId]

/-- Whether a monitor was deleted, and the tables; `none` when a key was violated. -/
def deleteMonitorCascade (monitorId : String) (db : Database Table Column Data) :
    Option (Bool × Database Table Column Data) :=
  (Transaction.batch (Statement.apply schema) schema.Consistent (cascade monitorId) db).map
    fun result =>
      -- only the last statement changes the monitors
      (decide ((result .monitors).length < (db .monitors).length), result)

end Utsuroi.Monitors
