import PrivaCloud.Common.AuditLines
import PrivaCloud.Common.CountedLog
import PrivaCloud.Framework.Run

/-!
# The total of the audit log

Appends, queries without a filter and crashes of the process, over the lines of the audit log.
-/

namespace PrivaCloud.Common.AuditTotal

open Framework Common.Jsonl

def size (entry : AuditLines.AuditEntry) : Nat := (Utf8.encodeChars entry.line).length + 1

abbrev AuditLog := CountedLog AuditLines.AuditEntry

/-- Where the process stops within `append` -/
inductive CrashPoint
  /-- the file is open, the line is not written -/
  | opened
  /-- the line is flushed, the sidecar is not replaced -/
  | written

inductive AuditOp
  /-- `append`, on the day that `_entry_date_str` gives -/
  | append (entry : AuditLines.AuditEntry) (day : String)
  | crash (entry : AuditLines.AuditEntry) (day : String) (point : CrashPoint)
  /-- `query_cursor` without a filter; its page leaves the files alone. -/
  | query

def auditStep (log : AuditLog) : AuditOp → Option AuditLog
  | .append entry day =>
    if entry.id ∉ log.stored.map AuditLines.AuditEntry.id then some (log.append AuditLines.AuditEntry.id day entry)
    else none
  | .crash _ day .opened => some (log.opened day)
  | .crash entry day .written =>
    if entry.id ∉ log.stored.map AuditLines.AuditEntry.id then some (log.appendUncounted day entry) else none
  | .query => some (log.getTotal size AuditLines.AuditEntry.id).2

def total (log : AuditLog) : Nat := (log.getTotal size AuditLines.AuditEntry.id).1

/-- The day is written with ten characters. An entry is counted where the sidecar is trusted, or will not be trusted
afterwards; no crash leaves out an entry of an older day while the sidecar is trusted. -/
def Careful (log : AuditLog) : AuditOp → Prop
  | .append entry day => isDate day = true ∧ log.Countable size AuditLines.AuditEntry.id day entry
  | .crash _ day .opened => isDate day = true
  | .crash _ day .written => isDate day = true ∧ log.Uncountable size AuditLines.AuditEntry.id day
  | .query => True

instance (log : AuditLog) : (op : AuditOp) → Decidable (Careful log op)
  | .append _ _ => inferInstanceAs (Decidable (_ ∧ _))
  | .crash _ _ .opened => inferInstanceAs (Decidable (_ = _))
  | .crash _ _ .written => inferInstanceAs (Decidable (_ ∧ _))
  | .query => .isTrue trivial

private theorem kept_step {log log' : AuditLog} {op : AuditOp} (h : log.Kept size AuditLines.AuditEntry.id)
    (hcareful : Careful log op) (hstep : auditStep log op = some log') : log'.Kept size AuditLines.AuditEntry.id := by
  match op with
  | .append entry day =>
    obtain ⟨hnew, happend⟩ := Option.ite_none_right_eq_some.mp hstep
    cases happend
    exact h.append hcareful.1 hnew hcareful.2
  | .crash entry day .opened =>
    cases hstep
    exact h.opened hcareful
  | .crash entry day .written =>
    obtain ⟨hnew, happend⟩ := Option.ite_none_right_eq_some.mp hstep
    cases happend
    exact h.appendUncounted hcareful.1 hnew hcareful.2
  | .query =>
    cases hstep
    exact h.getTotal

/-- After a careful run a query returns the number of the entries that are stored. -/
theorem total_of_careful {ops : List AuditOp} {log : AuditLog} (hrun : run auditStep {} ops = some log)
    (hcareful : RunMeets auditStep Careful {} ops) : total log = log.stored.length :=
  (run_invariant (fun _ _ _ h hc hs => kept_step h hc hs) CountedLog.Kept.start hcareful hrun).getTotal_total

def loginEntry (id day : String) : AuditLines.AuditEntry where
  id := id
  timestamp := day ++ "T00:00:00Z"
  actor := "admin"
  action := "login"
  target := none
  details := []
  written := JsonText.written_empty

/-- A crash behind the line of the newest day, which the next query finds, and entries of an older day -/
def mendedRun : List AuditOp :=
  [.append (loginEntry "a" "2026-01-02") "2026-01-02", .query, .append (loginEntry "b" "2026-01-02") "2026-01-02",
    .crash (loginEntry "c" "2026-01-02") "2026-01-02" .written, .query, .append (loginEntry "d" "2026-01-01") "2026-01-01",
    .crash (loginEntry "e" "2026-01-03") "2026-01-03" .opened]

theorem total_mendedRun : ∃ log, run auditStep {} mendedRun = some log ∧ total log = log.stored.length := by
  obtain ⟨log, hrun, -⟩ := exists_run_of_map auditStep {} mendedRun (fun _ => true) (by decide +kernel)
  exact ⟨log, hrun, total_of_careful hrun (by decide +kernel)⟩

/-- The append behind a crash counts on from the total before it. -/
theorem total_not_exact :
    (∃ log, run auditStep {} [.query, .crash (loginEntry "a" "2026-01-02") "2026-01-02" .written,
      .append (loginEntry "b" "2026-01-02") "2026-01-02"] = some log ∧ total log ≠ log.stored.length) ∧
    ∃ log, run auditStep {} [.append (loginEntry "a" "2026-01-02") "2026-01-02", .query,
      .crash (loginEntry "b" "2026-01-01") "2026-01-01" .written] = some log ∧ total log ≠ log.stored.length := by
  refine ⟨?_, ?_⟩
  · exact exists_run_of_decide auditStep {} _ (p := fun log => total log ≠ log.stored.length) (fun _ => id)
      (by decide +kernel)
  · -- the crash leaves out an entry of a day that is not the newest
    exact exists_run_of_decide auditStep {} _ (p := fun log => total log ≠ log.stored.length) (fun _ => id)
      (by decide +kernel)

end PrivaCloud.Common.AuditTotal
