import Utsuroi.Db.Store

/-!
# Check jobs and robots evaluations
-/

namespace Utsuroi

open Async

def newCheckJob (id : CheckJobId) (trigger : Trigger) : CheckJobRow where
  id := id
  status := .pending
  trigger := trigger

def Store.insertCheckJob (id : CheckJobId) (trigger : Trigger) (store : Store) : Store :=
  { store with checkJobs := insertIfNew store.checkJobs id (newCheckJob id trigger) }

def createCheckJobIfNew (id : CheckJobId) (trigger : Trigger) :
    Prog Site Store (InsertResult CheckJobRow) := do
  let inserted ← Prog.call (.insertCheckJob id) (Store.insertCheckJob id trigger)
    fun store => (store.checkJobs id).isNone
  if inserted then return ⟨true, newCheckJob id trigger⟩
  let existing ← Prog.query (.selectCheckJob id) fun store => store.checkJobs id
  match existing with
  | some row => return ⟨false, row⟩
  | none => .fail

/-- `UPDATE check_jobs SET status = ? WHERE id = ?` -/
def Store.updateCheckJob (id : CheckJobId) (status : CheckJobStatus) (store : Store) : Store :=
  { store with
    checkJobs := Function.update store.checkJobs id
      ((store.checkJobs id).map fun row => { row with status }) }

def updateCheckJobStatus (id : CheckJobId) (status : CheckJobStatus) : Prog Site Store Unit :=
  .call (.updateCheckJobStatus id status) (Store.updateCheckJob id status) fun _ => ()

/-- The table of attempts is written for display alone. -/
def createCheckAttempt : Prog Site Store Unit := .query .createCheckAttempt fun _ => ()

/-! ## Robots evaluations -/

/-- Answers the id of the new row. -/
def createRobotsEvaluation (row : RobotsEvaluationRow) : Prog Site Store Nat :=
  .call .createRobotsEvaluation
    (fun store => { store with robotsEvaluations := row :: store.robotsEvaluations })
    fun store => store.robotsEvaluations.length

/-- `ORDER BY checked_at DESC LIMIT ?`, and of these the first ones that are unavailable. -/
def countConsecutiveUnavailable (origin : String) (limit : Nat) (store : Store) : Nat :=
  let rows := store.robotsEvaluations.filter fun row => row.origin = origin
  let latest := (rows.mergeSort fun a b => decide (b.checkedAt ≤ a.checkedAt)).take limit
  (latest.takeWhile RobotsEvaluationRow.unavailable).length

def countConsecutiveUnavailableRobotsEvaluations (origin : String) (limit : Nat) :
    Prog Site Store Nat :=
  .query .countConsecutiveUnavailableRobotsEvaluations (countConsecutiveUnavailable origin limit)

end Utsuroi
