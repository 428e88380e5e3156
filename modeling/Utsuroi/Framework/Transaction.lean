/-!
# Batches of statements

A batch runs its statements in order on the data of a database.  The first statement whose result
breaks a constraint aborts it, and the database keeps the data it had.
-/

namespace Utsuroi.Transaction

variable {S σ : Type} (apply : S → σ → σ) (Valid : σ → Prop) [DecidablePred Valid]

/-- The data after the batch, `none` when a statement broke a constraint. -/
def batch : List S → σ → Option σ
  | [], data => some data
  | statement :: rest, data =>
    if Valid (apply statement data) then batch rest (apply statement data) else none

/-- All statements, whatever they break. -/
def runAll (statements : List S) (data : σ) : σ :=
  statements.foldl (fun data statement => apply statement data) data

variable {apply Valid} {statements : List S} {data result : σ}

theorem batch_cons_of_valid {statement : S} (h : Valid (apply statement data)) :
    batch apply Valid (statement :: statements) data =
      batch apply Valid statements (apply statement data) :=
  if_pos h

theorem batch_eq_runAll (h : batch apply Valid statements data = some result) :
    result = runAll apply statements data := by
  induction statements generalizing data with
  | nil => exact (Option.some.inj h).symm
  | cons statement statements ih =>
      rw [batch] at h
      split at h
      · exact ih h
      · cases h

theorem batch_valid (hdata : Valid data) (h : batch apply Valid statements data = some result) :
    Valid result := by
  induction statements generalizing data with
  | nil => exact Option.some.inj h ▸ hdata
  | cons statement statements ih =>
      rw [batch] at h
      split at h
      · next hvalid => exact ih hvalid h
      · cases h

end Utsuroi.Transaction
