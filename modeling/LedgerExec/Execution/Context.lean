import LedgerExec.ChainConfig
set_option autoImplicit false

/-!
# The context of a block's transactions

Everything that the transactions of one block share, and the job of executing
one of them.
-/

namespace LedgerExec

/-- What the transactions of a block share. -/
structure Context where
  chain : ChainConfig
  block : Header
  /-- receives the fees, unless the protocol account does -/
  coinbase : Address
  active : ActiveUpgrades
  blocks : BlockIndex
  receipts : ReceiptIndex
  invocation : Invocation.Maker
  interpreter : Interpreter
  registry : Registry
  tracing : TraceOptions
  /-- whether programs are run; if not, they are only prepared and charged -/
  runsPrograms : Bool
  feeToProtocol : Bool

namespace Context

/-- The context that a chain gives a block. -/
def ofChain (chain : ChainConfig) (block : Header) (blocks : BlockIndex) (receipts : ReceiptIndex)
    (interpreter : Interpreter) : Context where
  chain
  block
  coinbase := block.coinbase
  active := chain.upgrades.atHeight block.number
  blocks
  receipts
  invocation := Invocation.ofTransaction
  interpreter
  registry := Registry.standard
  tracing := chain.tracing
  runsPrograms := true
  feeToProtocol := chain.limits.feeToProtocol

/-- The account that receives the fees. -/
def feeRecipient (c : Context) : Address :=
  if c.feeToProtocol then c.chain.limits.feeCollector else c.coinbase

/-- The gas arithmetic of the block. -/
def gasRules (c : Context) : GasRules := GasRules.ofUpgrades c.active

end Context

/-- A transaction to be executed. -/
structure Job where
  context : Context
  transaction : Transaction
  /-- the index of the transaction in the block -/
  index : Nat := 0
  /-- the gas that earlier transactions of the block have used -/
  gasBefore : Gas := 0
  /-- the accounts that earlier transactions of the block have destroyed -/
  destroyedInBlock : Std.ExtTreeSet Address := ∅
  /-- whether nonces, balances and fees are left alone -/
  isLocal : Bool := false

namespace Job

/-- The intrinsic cost of the transaction. -/
def basicCost (j : Job) : Gas := j.context.chain.intrinsicCost j.transaction j.context.active

/-- The money for the whole gas limit. -/
def gasPrepayment (j : Job) : Balance :=
  j.transaction.gasLimit.price j.transaction.payload.gasPrice

/-- The money for the whole limit of rent gas. -/
def rentPrepayment (j : Job) : Balance :=
  j.transaction.rentGasLimit.price j.transaction.payload.gasPrice

/-- The money that is taken in advance. -/
def prepayment (j : Job) : Balance := Unsigned.addSat j.gasPrepayment j.rentPrepayment

end Job

end LedgerExec
