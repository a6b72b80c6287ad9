import LedgerExec.Block
import LedgerExec.RunResult
import LedgerExec.Trace
set_option autoImplicit false

/-!
# Programs and their interpreters

A program is code together with what it was invoked with and what it has done so
far.  The instruction set is not part of this library: an `Interpreter` is any
function that takes a program and a view of the state and gives both back.  It
reports failure through the result of the program.
-/

namespace LedgerExec

/-- What an interpreter is asked to record. -/
@[ext]
structure TraceOptions where
  /-- whether steps are recorded -/
  enabled : Bool := false
  maxSteps : Count := 100000
  deriving DecidableEq, Repr, Inhabited

namespace TraceOptions

instance : Wire TraceOptions where
  encode o := Wire.encode o.enabled ++ Wire.encode o.maxSteps
  decode := do
    let enabled ← Wire.decode
    let maxSteps ← Wire.decode
    return { enabled, maxSteps }

/-- The fields of the options as JSON. -/
def fields : Json.Record TraceOptions :=
  TraceOptions.mk <$> .field "vm_trace" <*> .field "max_trace_steps"

instance : Json.Codec TraceOptions where
  toJson o := Json.record
    [("vm_trace", Json.toJson o.enabled), ("max_trace_steps", Json.toJson o.maxSteps)]
  ofJson := fields.ofJson

end TraceOptions

/-- What a program is invoked with. -/
@[ext]
structure Invocation where
  /-- the account whose code runs -/
  owner : Address
  origin : Address
  caller : Address
  ownerBalance : Balance
  gasPrice : Balance
  gasLimit : Gas
  callValue : Balance
  callData : Bytes
  block : Header
  index : Nat
  deriving DecidableEq, Repr, Inhabited

namespace Invocation

/-- How an invocation is made for a transaction: from its index in the block, the account whose
code runs, the block and the state. -/
abbrev Maker : Type := Transaction → Nat → Address → Header → View → Invocation

/-- The invocation of a transaction.  The code that creates a contract is not call data. -/
def ofTransaction : Maker := fun t index owner block state =>
  { owner
    origin := t.sender
    caller := t.sender
    ownerBalance := state.balance owner
    gasPrice := t.payload.gasPrice
    gasLimit := t.payload.gasLimit
    callValue := t.payload.value
    callData := if t.isCreation then [] else t.payload.data
    block
    index }

end Invocation

/-- What an interpreter notes down about something it has seen. -/
inductive Note where
  | charge (fault : Option RunFault)
  | amount (value : Unsigned 64)
  | account (account : Option Account)
  | result (result : RunResult)
  | invocation (invocation : Invocation) (code : Bytes)
  deriving DecidableEq, Inhabited

/-- A program with what it has done so far. -/
@[ext]
structure Program where
  invocation : Invocation
  code : Bytes
  result : RunResult := {}
  trace : ProgramTrace
  /-- the accounts destroyed earlier in the block -/
  destroyedInBlock : Std.ExtTreeSet Address
  /-- what the interpreter has noted down; the executor carries it along and never looks at it -/
  notes : List Note := []
  deriving DecidableEq, Inhabited

namespace Program

/-- A program that has not run. -/
def start (options : TraceOptions) (code : Bytes) (invocation : Invocation)
    (destroyedInBlock : Std.ExtTreeSet Address) : Program :=
  { invocation
    code
    trace :=
      { contract := invocation.owner, enabled := options.enabled, maxSteps := options.maxSteps }
    destroyedInBlock }

/-- The account whose code runs. -/
def owner (p : Program) : Address := p.invocation.owner

/-- The gas that is left. -/
def gasLeft (p : Program) : Gas := Unsigned.subSat p.invocation.gasLimit p.result.gasUsed

/-- Charges gas, or nothing if there is not enough. -/
def charge (p : Program) (amount : Gas) (cause : String) : Except RunFault Program :=
  if amount ≤ p.gasLeft then .ok { p with result := p.result.spend amount }
  else .error (.outOfGas cause amount p.gasLeft)

theorem charge_eq_ok_iff {p q : Program} {amount : Gas} {cause : String} :
    p.charge amount cause = .ok q ↔
      amount ≤ p.gasLeft ∧ q = { p with result := p.result.spend amount } := by
  unfold charge
  split <;> simp_all [eq_comm]

theorem charge_eq_error_iff {p : Program} {amount : Gas} {cause : String} {fault : RunFault} :
    p.charge amount cause = .error fault ↔
      ¬amount ≤ p.gasLeft ∧ fault = .outOfGas cause amount p.gasLeft := by
  unfold charge
  split <;> simp_all [eq_comm]

/-- Charges all the gas that is left. -/
def chargeAll (p : Program) : Program := { p with result := p.result.spend p.gasLeft }

/-- Records a failure. -/
def fail (p : Program) (fault : RunFault) : Program := { p with result := p.result.fail fault }

/-- Sets what the program returns. -/
def setOutput (p : Program) (output : Bytes) : Program :=
  { p with result := { p.result with output } }

/-- The fault of lacking gas for something that comes after the run. -/
def notEnoughGas (p : Program) (cause : String) (needed : Gas) : RunFault :=
  .notEnoughGas cause needed p.gasLeft

/-- Records a step. -/
def addStep (p : Program) (step : TraceStep) : Program := { p with trace := p.trace.addStep step }

/-- Whether an account was destroyed earlier in the block. -/
def wasDestroyed (p : Program) (address : Address) : Bool := p.destroyedInBlock.contains address

/-- The program as an interpreter gives it back.  By the interpreter contract (section 1 of the
specification) code runs against an invocation and a view of the state, and what comes of it is
the gas, the output, the logs, the destroyed accounts, the internal calls and a fault or a revert.
A program has no setters for its invocation, its code and the accounts destroyed in the block: an
interpreter reads them, and they are taken from the program that it was handed. -/
def giveBack (p q : Program) : Program :=
  { p with result := q.result, trace := q.trace, notes := q.notes }

/-- Notes something down. -/
def note (p : Program) (n : Note) : Program := { p with notes := p.notes ++ [n] }

end Program

/-- Runs a program on a view of the state. -/
abbrev Interpreter : Type := Program → View → Program × View

/-- The interpreter that executes nothing. -/
def Interpreter.passive : Interpreter := fun p state => (p, state)

end LedgerExec
