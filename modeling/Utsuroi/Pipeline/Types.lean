import Utsuroi.Db.Store
import Utsuroi.Shared.Contracts

/-!
# The context of a check
-/

namespace Utsuroi

/-- What one check loads at its start and passes on. -/
structure CheckContext where
  monitor : MonitorRow
  source : SourceRow
  site : SiteRow
  /-- `ctx.now()`, epoch milliseconds -/
  now : Nat
  deriving DecidableEq, Repr

/-- What a check adds up on its way. -/
structure CheckProgress where
  changeIds : List ChangeId
  titleFetchesUsed : Nat
  deriving DecidableEq, Repr

def newProgress : CheckProgress := ⟨[], 0⟩

end Utsuroi
