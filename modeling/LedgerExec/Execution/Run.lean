import LedgerExec.Execution.State
set_option autoImplicit false

/-!
# Executing a transaction

An accepted transaction goes through three phases.  `run` raises the nonce, takes
the price of both gas limits in advance and prepares what the receiver asks for:
the creation of a contract, a call of a built-in contract, a call of code, or a
plain transfer.  `complete` plays the prepared program and commits or forgets
what was done.  `finalize` settles the gas, pays the fee and removes destroyed
accounts.
-/

namespace LedgerExec

namespace Job

/-! ## Preparing -/

/-- Raises the sender's nonce and takes the price of both limits. -/
def prepay (j : Job) (e : Execution) : Execution :=
  let sender := j.transaction.sender
  let outer := e.outer.raiseNonce sender
  match outer.debit sender j.prepayment with
  | .ok outer => { e with outer, prepaid := true }
  | .error fault =>
    { e with
      outer
      gasLeft := 0
      error := some (.prepayment fault)
      result := e.result.fail (.transfer fault) }

/-- Ends the run before any program is played. -/
def failRun (e : Execution) (fault : RunFault) : Execution :=
  { e.rollback with
    program := none
    gasLeft := 0
    error := some (.failed fault)
    result := e.result.fail fault }

/-- Moves the value of the transaction, unless the run has failed already. -/
def moveValue (j : Job) (e : Execution) (target : Address) : Execution :=
  if e.result.fault.isSome then e
  else
    match e.inside.transfer j.transaction.sender target j.transaction.payload.value with
    | .ok v => e.setInside v
    | .error fault => failRun e (.transfer fault)

/-- Charges the intrinsic cost alone. -/
def chargeBasic (j : Job) (e : Execution) : Execution :=
  { e with
    gasLeft := Unsigned.subSat j.transaction.gasLimit j.basicCost
    result := e.result.spend j.basicCost }

/-- Prepares a program that runs as an account. -/
def prepare (j : Job) (e : Execution) (owner : Address) (code : Bytes) : Execution :=
  let c := j.context
  let invocation := c.invocation j.transaction j.index owner c.block e.inside
  { e with program := some (Program.start c.tracing code invocation j.destroyedInBlock) }

/-- Creates a contract: a new account, and a program if there is init code. -/
def create (j : Job) (e : Execution) (address : Address) : Execution :=
  let e := { e with newContract := some address }.within (·.create address)
  let e :=
    if j.transaction.payload.data.isEmpty then j.chargeBasic e
    else j.prepare (e.within (·.setUpContract address)) address j.transaction.payload.data
  j.moveValue e address

/-- Makes the account of a built-in contract a contract, creating it if there is none. -/
def adopt (address : Address) (v : View) : View :=
  if !v.hasAccount address then (v.create address).setUpContract address
  else if !v.hasContract address then v.setUpContract address
  else v

/-- Three quarters of an amount of gas. -/
def threeQuarters (gas : Gas) : Gas :=
  ⟨gas.toNat * 3 / 4, by
    have := gas.isLt
    omega⟩

/-- Takes the gas of a built-in contract. -/
def takeGas (j : Job) (e : Execution) (used : Gas) : Execution :=
  match j.context.gasRules.sub j.transaction.gasLimit used with
  | .ok left => { e with gasLeft := left }
  | .error fault => { e with gasLeft := 0, result := e.result.fail (.invalidGas fault) }

/-- What a built-in contract is shown. -/
def environment (j : Job) : BuiltInEnv where
  transaction := j.transaction
  block := j.context.block
  blocks := j.context.blocks
  receipts := j.context.receipts

/-- The gas that a built-in contract asks for. -/
def required (j : Job) (contract : BuiltIn) : Gas :=
  contract.requiredGasIn j.environment j.transaction.payload.data

/-- Lets a built-in contract answer. -/
def consult (j : Job) (e : Execution) (address : Address) (contract : BuiltIn) : Execution :=
  let data := j.transaction.payload.data
  match contract.answer (some j.environment) data with
  | .ok output =>
    { e with
      subtraces := contract.subtracesIn j.environment data
      result := { e.result with output } }.within (adopt address)
  | .error fault => { e with result := e.result.fail (.builtIn fault.message) }

/-- Answers a call of a built-in contract whose gas is covered. -/
def answer (j : Job) (e : Execution) (address : Address) (contract : BuiltIn) (used : Gas) :
    Execution :=
  let e := j.takeGas { e with rentLeft := j.transaction.rentGasLimit } used
  let e := j.consult e address contract
  { e with result := e.result.spend used }

/-- Calls a built-in contract.  If the gas limit does not cover it, a quarter of the rent gas is
retained and no value moves. -/
def callBuiltIn (j : Job) (e : Execution) (address : Address) (contract : BuiltIn) : Execution :=
  let t := j.transaction
  let c := j.context
  let required := j.required contract
  let used := Gas.add required j.basicCost
  if !j.isLocal && !c.gasRules.hasEnough t.gasLimit required used then
    { e with
      error := some (.builtInOutOfGas c.block.number address required used e.gasLeft)
      gasLeft := 0
      rentLeft := threeQuarters t.rentGasLimit }
  else j.moveValue (j.answer e address contract used) address

/-- What a transaction asks for. -/
inductive Dispatch where
  | creation (address : Address)
  | builtIn (address : Address) (contract : BuiltIn)
  | program (address : Address) (code : Bytes)
  | plain (address : Address)

/-- Finds out what the transaction asks for. -/
def dispatch (j : Job) (outer : View) : Dispatch :=
  let t := j.transaction
  match t.receiver? with
  | none => .creation (contractAddress t.sender t.payload.nonce)
  | some receiver =>
    match j.context.registry.contract? j.context.active receiver with
    | some contract => .builtIn receiver contract
    | none =>
      match outer.code? receiver with
      | some code => if code.isEmpty then .plain receiver else .program receiver code
      | none => .plain receiver

/-- Does what the transaction asks for, short of playing a program. -/
def perform (j : Job) (e : Execution) : Execution :=
  match j.dispatch e.outer with
  | .creation address => j.create e address
  | .builtIn address contract => j.callBuiltIn e address contract
  | .program address code => j.moveValue (j.prepare e address code) address
  | .plain address => j.moveValue (j.chargeBasic e) address

/-- The first phase. -/
def run (j : Job) (e : Execution) : Execution :=
  if j.isLocal then j.perform e
  else
    let e := j.prepay e
    if e.prepaid then j.perform e else e

/-! ## Playing the program -/

/-- An execution with its program out of it, and whether playing has come to an end. -/
structure Play where
  execution : Execution
  program : Program
  outcome : Except RunFault Unit := .ok ()

/-- Charges for the code that init code has returned and saves it. -/
def deposit (j : Job) (p : Play) (address : Address) : Play :=
  let size := p.program.result.output.length
  let cost := Gas.mul Gas.perCodeByte (Unsigned.clamp 64 size)
  let limit := j.context.chain.limits.maxContractSize.toNat
  let refuse (fault : RunFault) : Play :=
    { p with
      execution := { p.execution with depositRefused := true }
      program := (p.program.fail fault).setOutput [] }
  if p.execution.gasLeft < cost then
    refuse (p.program.notEnoughGas "No gas to return just created contract" cost)
  else if limit < size then refuse (.contractTooLarge limit size)
  else
    match Gas.sub p.execution.gasLeft cost with
    | .error fault => { p with outcome := .error (.invalidGas fault) }
    | .ok left =>
      let e := { p.execution with gasLeft := left }
      match p.program.charge cost "CONTRACT DATA COST" with
      | .error fault => { p with execution := e, outcome := .error fault }
      | .ok program =>
        { execution := e.within (·.saveCode address program.result.output), program }

/-- Forgets what a failed or reverted program has done. -/
def conclude (p : Play) : Play :=
  let r := p.program.result
  if r.fault.isSome || r.reverted then
    let program := { p.program with result := r.discard }
    let e := p.execution.rollback
    match r.fault with
    | some fault => { execution := e, program, outcome := .error fault }
    | none => { execution := { e with error := some .reverted }, program }
  else p

/-- Hands the program to the interpreter. -/
def interpret (j : Job) (e : Execution) (program : Program) : Play :=
  if j.context.runsPrograms then
    let (played, v) := j.context.interpreter program e.inside
    { execution := e.setInside v, program := program.giveBack played }
  else { execution := e, program }

/-- Deposits the code of a creation, unless its program has reverted. -/
def depositNew (j : Job) (p : Play) : Play :=
  match p.execution.newContract with
  | some address => if p.program.result.reverted then p else j.deposit p address
  | none => p

/-- What follows once the gas that is left is known: the deposit and the end. -/
def wrapUp (j : Job) (p : Play) : Play :=
  let p := j.depositNew p
  match p.outcome with
  | .error _ => p
  | .ok () => conclude p

/-- What follows the interpreter: the gas that is left, and all else if there is no less than
none. -/
def afterInterpreter (j : Job) (p : Play) : Play :=
  match Gas.sub j.transaction.gasLimit p.program.result.gasUsed with
  | .error fault => { p with outcome := .error (.invalidGas fault) }
  | .ok left => j.wrapUp { p with execution := { p.execution with gasLeft := left } }

/-- Plays a program to its end. -/
def play (j : Job) (e : Execution) (program : Program) : Play :=
  match program.charge j.basicCost "TRANSACTION COST" with
  | .error fault => { execution := e, program, outcome := .error fault }
  | .ok program => j.afterInterpreter (j.interpret e program)

/-- Keeps the account of a contract whose code was refused, although the run is forgotten. -/
def keepRefused (e : Execution) : Execution :=
  match e.depositRefused, e.newContract with
  | true, some address =>
    let e := if e.inside.hasAccount address then e else e.within (·.create address)
    e.commit
  | _, _ => e

/-- Ends the run with the fault that stopped its program: all that it did and all gas is lost. -/
def abort (e : Execution) (fault : RunFault) : Execution :=
  { e.rollback with
    gasLeft := 0
    error := some (.failed fault)
    result := if e.result.fault.isSome then e.result else e.result.fail fault }

/-- Puts the program back when playing has come to an end, and commits or forgets the run. -/
def close (p : Play) : Execution :=
  let e := { p.execution with result := p.program.result, program := some p.program }
  match p.outcome with
  | .ok () => e.commit
  | .error fault => keepRefused (abort e fault)

/-- The second phase. -/
def complete (j : Job) (e : Execution) : Execution :=
  match e.program with
  | none => e.commit
  | some program => close (j.play e program)

/-! ## Settling -/

/-- The balance sheet of a run that left `gasLeft` gas unspent. -/
def settlement (j : Job) (r : RunResult) (gasLeft : Gas) : Settlement :=
  { transaction := j.transaction.hash
    value := j.transaction.payload.value
    gasPrice := j.transaction.payload.gasPrice
    gasLimit := j.transaction.gasLimit
    gasUsed := r.gasUsed
    gasLeft
    gasRefund := Gas.cappedRefund r.refund r.gasUsed
    logs := r.acceptedLogs
    destroyed := r.destroyed
    calls := r.calls
    output := r.output
    failed := r.fault.isSome }

/-- Gives the sender its money back and pays the fee. -/
def payOut (j : Job) (s : Settlement) (v : View) : View :=
  (v.credit j.transaction.sender (Unsigned.addSat s.leftover s.refund)).credit
    j.context.feeRecipient s.fee

/-- Saves the code of nested creations. -/
def saveChanges (r : RunResult) (v : View) : View :=
  r.codeChanges.toList.foldl (fun v (address, code) => v.saveCode address code) v

/-- Removes the destroyed accounts. -/
def removeDestroyed (r : RunResult) (v : View) : View := r.destroyed.toList.foldl View.delete v

/-- The result of a run with the refund for the accounts that it destroys. -/
def creditDestroyed (r : RunResult) : RunResult :=
  r.addRefund (Gas.mul (Unsigned.clamp 64 r.destroyed.size) Gas.perDestruction)

/-- The outer view with everything paid and saved, before accounts are removed from it. -/
def paidOut (j : Job) (e : Execution) : View :=
  let r := creditDestroyed e.result
  saveChanges r (if e.prepaid then j.payOut (j.settlement r e.gasLeft) e.outer else e.outer)

/-- The third phase. -/
def finalize (j : Job) (e : Execution) : Execution :=
  if j.isLocal then e
  else
    let e := e.commit
    let r := creditDestroyed e.result
    let s := j.settlement r e.gasLeft
    { e with
      outer := removeDestroyed r (j.paidOut e)
      senders := e.senders.store j.transaction
      result := r
      gasLeft := j.context.gasRules.add e.gasLeft s.gasRefund
      logs := r.acceptedLogs
      paidFees := if e.prepaid then s.fee else 0
      settlement := some s }

/-! ## The whole -/

/-- The first two phases. -/
def played (j : Job) (outer : View) (senders : SenderCache) : Execution :=
  j.complete (j.run { outer, senders })

/-- Executes the transaction on a view, unless it is rejected. -/
def execute (j : Job) (outer : View) (senders : SenderCache) : Execution :=
  match j.validate outer senders with
  | (.error reason, senders) => { outer, senders, error := some (.rejected reason) }
  | (.ok (), senders) => j.finalize (j.played outer senders)

/-! ## What is reported -/

/-- The gas charged to the sender. -/
def gasUsed (j : Job) (e : Execution) : Gas :=
  j.context.gasRules.subOrZero j.transaction.gasLimit e.gasLeft

/-- The rent gas charged to the sender. -/
def rentGasUsed (j : Job) (e : Execution) : Gas :=
  j.context.gasRules.subOrZero j.transaction.rentGasLimit e.rentLeft

/-- The receipt of the transaction. -/
def receipt (j : Job) (e : Execution) : Receipt :=
  { transaction := j.transaction.hash
    cumulativeGas := Gas.add j.gasBefore (j.gasUsed e)
    gasUsed := j.gasUsed e
    rentGasUsed := j.rentGasUsed e
    status := if e.error.isNone then .success else .failed
    logs := e.logs }

/-- The trace of the transaction: that of its program, or a summary of the value it moved. -/
def trace (j : Job) (e : Execution) : Trace :=
  match e.program with
  | some program =>
    .program (program.trace.close e.result.output (e.result.fault.map (·.message))
      e.result.reverted)
  | none =>
    .summarized
      { movement :=
          { sender := j.transaction.sender
            receiver := j.transaction.receiver?
            gas := 0
            value := j.transaction.payload.value }
        subtraces := e.subtraces }

end Job

/-- Adds the nodes of an account to the rent table. -/
def Execution.recordNodes (e : Execution) (address : Address) : Execution :=
  { e with result := (e.outer.nodes address).foldl RunResult.addNode e.result }

end LedgerExec
