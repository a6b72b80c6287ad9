import LedgerExec.Program
set_option autoImplicit false

/-!
# Scripted programs

An interpreter whose programs are lists of steps.  Each step does one thing that
an interpreter may do: charge gas, return, fail, write to the state, add to the
result, or look at something and note it down.  A step is recorded in the trace
before it is done.
-/

namespace LedgerExec

/-- What every step carries: its name for the trace, the gas it announces, and the account it is
about, which is the owner of the program when it is not said. -/
structure StepHeader where
  name : String
  gas : Gas := 0
  target : Option Address := none
  deriving DecidableEq, Repr, Inhabited

/-- A failure that a step reports. -/
inductive ScriptFault where
  | fixed (fault : RunFault)
  /-- lacking gas, with the gas that is left when the step is done -/
  | notEnoughGas (cause : String) (needed : Gas)
  deriving DecidableEq, Repr, Inhabited

/-- What a step does that contains no other steps. -/
inductive Action where
  | spend (gas : Gas) (cause : String)
  | trySpend (gas : Gas) (cause : String)
  | spendAll
  /-- counts gas as used without looking at the limit -/
  | rawSpend (gas : Gas)
  | remaining
  | returnData (data : Bytes)
  | returnCallData
  | returnCode
  | returnWord (key : Word)
  | revert (stops : Bool)
  | fail (fault : ScriptFault) (stops : Bool)
  | store (key value : Word)
  | addBalance (amount : Balance)
  | create
  | setUp
  | saveCode (code : Bytes)
  | delete
  | raiseNonce
  | transfer (receiver : Address) (amount : Balance)
  | selfDestruct (receiver : Address)
  | log (topics : List Word) (data : Bytes) (rejected : Bool)
  | markDestroyed
  | refund (gas : Gas)
  | resetRefund
  | changeCode (code : Bytes)
  | node (key : Word) (length : Nat)
  | discard
  /-- a call whose sender is the account that the step is about -/
  | call (call : InternalCall)
  | seeAccount
  | seeResult
  | seeInvocation
  deriving DecidableEq, Repr, Inhabited

/-- A step of a script. -/
inductive ScriptStep where
  | act (header : StepHeader) (action : Action)
  /-- done if the account was destroyed earlier in the block -/
  | ifDestroyed (header : StepHeader) (steps : List ScriptStep)
  /-- done on a view of its own, which is then committed or forgotten -/
  | nested (header : StepHeader) (steps : List ScriptStep) (commits : Bool)
  deriving Repr, Inhabited

/-- A script in progress. -/
structure ScriptRun where
  program : Program
  view : View
  stopped : Bool := false
  deriving Inhabited

namespace ScriptRun

/-- The account that a step is about. -/
def target (r : ScriptRun) (header : StepHeader) : Address :=
  header.target.getD r.program.owner

/-- Changes the program. -/
def withProgram (r : ScriptRun) (f : Program → Program) : ScriptRun :=
  { r with program := f r.program }

/-- Changes the result of the program. -/
def withResult (r : ScriptRun) (f : RunResult → RunResult) : ScriptRun :=
  r.withProgram fun p => { p with result := f p.result }

/-- Changes the view. -/
def withView (r : ScriptRun) (f : View → View) : ScriptRun := { r with view := f r.view }

/-- Notes something down. -/
def note (r : ScriptRun) (n : Note) : ScriptRun := r.withProgram (·.note n)

/-- Stops the whole script. -/
def stop (r : ScriptRun) : ScriptRun := { r with stopped := true }

/-- Stops the whole script if asked to. -/
def stopIf (r : ScriptRun) (stops : Bool) : ScriptRun := if stops then r.stop else r

/-- Records a step in the trace. -/
def record (r : ScriptRun) (header : StepHeader) (depth place : Nat) : ScriptRun :=
  r.withProgram fun p => p.addStep
    { pc := Unsigned.clamp 64 place
      op := header.name
      gas := p.gasLeft
      gasCost := header.gas
      depth := Unsigned.clamp 32 depth }

/-- The failure that a step reports. -/
def faultOf (r : ScriptRun) : ScriptFault → RunFault
  | .fixed fault => fault
  | .notEnoughGas cause needed => r.program.notEnoughGas cause needed

/-- Does a step that contains no others. -/
def act (r : ScriptRun) (header : StepHeader) (action : Action) : ScriptRun :=
  let target := r.target header
  match action with
  | .spend gas cause =>
    match r.program.charge gas cause with
    | .ok program => { r with program }
    | .error fault => (r.withProgram fun p => p.chargeAll.fail fault).stop
  | .trySpend gas cause =>
    match r.program.charge gas cause with
    | .ok program => ({ r with program }).note (.charge none)
    | .error fault => r.note (.charge (some fault))
  | .spendAll => r.withProgram (·.chargeAll)
  | .rawSpend gas => r.withResult (·.spend gas)
  | .remaining => r.note (.amount r.program.gasLeft)
  | .returnData data => r.withProgram (·.setOutput data)
  | .returnCallData => r.withProgram fun p => p.setOutput p.invocation.callData
  | .returnCode => r.withProgram fun p => p.setOutput p.code
  | .returnWord key => r.withProgram (·.setOutput (r.view.word target key).toBytes)
  | .revert stops => (r.withResult fun x => { x with reverted := true }).stopIf stops
  | .fail fault stops => (r.withProgram (·.fail (r.faultOf fault))).stopIf stops
  | .store key value => r.withView (·.store target key value)
  | .addBalance amount => r.withView (·.credit target amount)
  | .create => r.withView (·.create target)
  | .setUp => r.withView (·.setUpContract target)
  | .saveCode code => r.withView (·.saveCode target code)
  | .delete => r.withView (·.delete target)
  | .raiseNonce =>
    let r := r.withView (·.raiseNonce target)
    r.note (.amount (r.view.nonce target))
  | .transfer receiver amount =>
    match r.view.transfer target receiver amount with
    | .ok view => { r with view }
    | .error fault => (r.withProgram (·.fail (.transfer fault))).stop
  | .selfDestruct receiver =>
    let owner := r.program.owner
    match r.view.transfer owner receiver (r.view.balance owner) with
    | .ok view => ({ r with view }).withResult (·.destroy owner)
    | .error _ => r
  | .log topics data rejected =>
    r.withResult (·.addLog { address := target, topics, data, rejected })
  | .markDestroyed => r.withResult (·.destroy target)
  | .refund gas => r.withResult (·.addRefund gas)
  | .resetRefund => r.withResult fun x => { x with refund := 0 }
  | .changeCode code => r.withResult (·.changeCode target code)
  | .node key length => r.withResult (·.addNode (key, NodeLength.ofNat length))
  | .discard => r.withResult (·.discard)
  | .call call => r.withResult (·.addCall { call with sender := target })
  | .seeAccount => r.note (.account (r.view.account? target))
  | .seeResult => r.note (.result r.program.result)
  | .seeInvocation => r.note (.invocation r.program.invocation r.program.code)

mutual
/-- Does a step. -/
def step (r : ScriptRun) (depth place : Nat) : ScriptStep → ScriptRun
  | .act header action => (r.record header depth place).act header action
  | .ifDestroyed header steps =>
    let r := r.record header depth place
    if r.program.wasDestroyed (r.target header) then r.steps depth 0 steps else r
  | .nested header steps commits =>
    let r := r.record header depth place
    let r := (r.withView View.push).steps (depth + 1) 0 steps
    r.withView fun v => (if commits then v.commit else v.rollback).pop

/-- Does steps one after the other until one stops the script. -/
def steps (r : ScriptRun) (depth place : Nat) : List ScriptStep → ScriptRun
  | [] => r
  | first :: rest =>
    let r := r.step depth place first
    if r.stopped then r else r.steps depth (place + 1) rest
end

end ScriptRun

/-- The interpreter that runs the script kept under a program's code, if there is one. -/
def Interpreter.scripted (scripts : List (Bytes × List ScriptStep)) : Interpreter :=
  fun program view =>
    match scripts.find? (·.1 = program.code) with
    | none => (program, view)
    | some (_, steps) =>
      let r := ScriptRun.steps { program, view } 0 0 steps
      (r.program, r.view)

end LedgerExec
