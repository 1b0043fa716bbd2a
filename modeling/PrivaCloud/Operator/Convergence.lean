import PrivaCloud.Operator.Handlers

/-!
# Calls that converge the objects of a tenant

`ensure_runtime_objects` and `ensure_terminal_objects` read the Deployments and create or replace what is there. They
scale nothing and ask no pod.
-/

namespace PrivaCloud.Operator

open Framework Kube

/-- A call that creates, replaces or reads an object, or an error -/
def Converging : OperatorOp → Prop
  | .read _ | .provision _ | .createService _ | .create _ _ | .replace _ _ _ _ | .raise _ => True
  | _ => False

/-- The script makes no other calls. -/
abbrev Converges {α : Type} (x : OperatorScript α) : Prop := x.Within Converging fun _ _ => True

section Scripts

variable {α : Type}

theorem Converges.call {op : OperatorOp} {f : op.Reply → OperatorScript α} (hf : ∀ reply, Converges (f reply))
    (h : Converging op) : Converges (Script.perform op >>= f) := ⟨h, fun reply _ => hf reply⟩

theorem Converges.perform {op : OperatorOp} (h : Converging op) :
    Converges (Script.perform op : OperatorScript op.Reply) := Script.Within.perform h

theorem converges_raise (message : String) : Converges (raise message : OperatorScript α) :=
  ⟨trivial, fun never => nomatch never⟩

theorem converges_getReplicas (c : Component) : Converges (getReplicas c) := by
  refine Converges.call ?_ trivial
  intro d
  cases d <;> trivial

theorem converges_appliedAllocationHash : Converges appliedAllocationHash := Converges.call (fun _ => trivial) trivial

theorem converges_desired (a : Option Allocation) : Converges (desired a) := by
  cases a with
  | some a => trivial
  | none => exact converges_raise _

theorem converges_ensureRuntimeObjects (args : HandlerArgs) (defaults : RunnerDefaults) :
    Converges (ensureRuntimeObjects args defaults) := by
  refine Converges.call ?_ trivial
  intro _
  refine Converges.call ?_ trivial
  intro _
  apply Script.Within.bind (converges_desired _)
  intro a
  refine Converges.call ?_ trivial
  intro runner
  split
  · refine Converges.call ?_ trivial
    intro terminal
    split
    · exact Converges.perform trivial
    · split
      · trivial
      · exact Converges.perform trivial
  · split
    · trivial
    · refine Converges.call ?_ trivial
      intro terminal
      split
      · exact Converges.perform trivial
      · split
        · split
          · exact converges_raise _
          · trivial
        · exact Converges.perform trivial

theorem converges_ensureTerminalObjects (args : HandlerArgs) (defaults : RunnerDefaults) :
    Converges (ensureTerminalObjects args defaults) := by
  unfold ensureTerminalObjects
  split
  · trivial
  · refine Converges.call ?_ trivial
    intro _
    refine Converges.call ?_ trivial
    intro _
    apply Script.Within.bind (converges_desired _)
    intro a
    refine Converges.call ?_ trivial
    intro terminal
    split
    · exact Converges.perform trivial
    · split
      · trivial
      · exact Converges.perform trivial

end Scripts

end PrivaCloud.Operator
