import LedgerExec.Execution.Validation
import LedgerExec.Settlement
set_option autoImplicit false

/-!
# The state of an execution

An execution writes to two layers of state.  The outer view is the view of the
transaction; it receives what happens whether or not the run succeeds.  The inner
layer stands on top of it and receives what the run does; it is committed to the
outer view or forgotten.
-/

namespace LedgerExec

/-- Why an executed or rejected transaction did not succeed. -/
inductive ExecutionError where
  | rejected (reason : Rejection)
  /-- the gas could not be paid in advance -/
  | prepayment (fault : StateFault)
  /-- the gas limit does not cover a built-in contract -/
  | builtInOutOfGas (block : Height) (address : Address) (required used left : Gas)
  | failed (fault : RunFault)
  | reverted
  deriving DecidableEq, Repr, Inhabited

/-- The wording of an error. -/
def ExecutionError.message : ExecutionError → String
  | .rejected reason => reason.message
  | .prepayment fault => s!"Gas prepayment failed: {fault.message}"
  | .builtInOutOfGas block address required used left =>
    s!"Out of Gas calling precompiled contract at block {block} for address {address.display}. " ++
      s!"required: {required}, used: {used}, left: {left} "
  | .failed fault => fault.message
  | .reverted => "REVERT opcode executed"

/-- How far the execution of a transaction has come. -/
structure Execution where
  /-- the view of the transaction -/
  outer : View
  /-- the writes of the run on top of it -/
  inner : Layer := {}
  senders : SenderCache
  error : Option ExecutionError := none
  /-- the gas that goes back to the sender -/
  gasLeft : Gas := 0
  /-- the rent gas that goes back to the sender -/
  rentLeft : Gas := 0
  /-- whether gas was paid in advance -/
  prepaid : Bool := false
  result : RunResult := {}
  program : Option Program := none
  subtraces : List Subtrace := []
  newContract : Option Address := none
  /-- whether the code that a creation returned was refused -/
  depositRefused : Bool := false
  logs : List Log := []
  paidFees : Balance := 0
  settlement : Option Settlement := none
  deriving Inhabited

namespace Execution

/-- The state as the run sees it. -/
def inside (e : Execution) : View := ⟨e.inner, e.outer.layers⟩

/-- The execution after the run has turned its view into another. -/
def setInside (e : Execution) (v : View) : Execution := { e with inner := v.top, outer := v.pop }

/-- Applies an operation to the view of the run. -/
def within (e : Execution) (f : View → View) : Execution := e.setInside (f e.inside)

/-- Commits the run. -/
def commit (e : Execution) : Execution := e.within View.commit

/-- Forgets the run. -/
def rollback (e : Execution) : Execution := e.within View.rollback

/-- Whether the transaction was executed. -/
def accepted (e : Execution) : Bool :=
  match e.error with
  | some (.rejected _) => false
  | _ => true

/-- The wording of the error, empty without one. -/
def errorText (e : Execution) : String := (e.error.map (·.message)).getD ""

end Execution

end LedgerExec
