import Mathlib.Logic.Function.Basic

/-!
# Rows of the SQL tables

The values of a row by its columns, and the `UPDATE` of `_BACKFILLS`, which both schemas run.
-/

namespace PrivaCloud.DataSpine.Sql

inductive Value
  | null
  | integer (n : Int)
  | real (bits : UInt64)
  | text (s : String)
  deriving DecidableEq

abbrev Row := String → Value

/-- A row with these values, and NULL in the other columns -/
def rowOf (cells : List (String × Value)) : Row := fun column => (cells.lookup column).getD .null

/-- `UPDATE hook_policy SET enforced_events = events WHERE enforced = 1 AND enforced_events = '[]'` -/
def backfill (row : Row) : Row :=
  if row "enforced" = .integer 1 ∧ row "enforced_events" = .text "[]" then
    Function.update row "enforced_events" (row "events")
  else row

theorem backfill_backfill (row : Row) : backfill (backfill row) = backfill row := by
  unfold backfill
  split
  · rename_i h
    rw [Function.update_self, Function.update_of_ne (by decide), Function.update_of_ne (by decide)]
    simp [h.1]
  · rfl

theorem backfill_of_ne (row : Row) {column : String} (h : column ≠ "enforced_events") :
    backfill row column = row column := by
  unfold backfill
  split
  · exact Function.update_of_ne h _ _
  · rfl

/-- An account as both schemas define it -/
def accountRow (accountId : String) : Row := rowOf [("account_id", .text accountId), ("username", .text "u"),
  ("password_hash", .text "h"), ("role", .text "user"), ("status", .text "active"),
  ("agent_runner_type", .text "auto_scale"), ("created_at", .text "2026-01-01T00:00:00.000Z"),
  ("updated_at", .text "2026-01-01T00:00:00.000Z")]

end PrivaCloud.DataSpine.Sql
