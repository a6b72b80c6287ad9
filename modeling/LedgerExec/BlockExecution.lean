import LedgerExec.Execution.Run
set_option autoImplicit false

/-!
# Executing blocks

The transactions of a block are executed in order on one view, which is committed
at the end.  A rejected transaction leaves nothing in the block but its reason:
the index, the gas used so far and the destroyed accounts that a transaction sees
are those of the accepted ones before it.  The executor remembers the blocks,
the receipts and the senders for the blocks that follow.
-/

namespace LedgerExec

/-- A transaction left out of a block. -/
@[ext]
structure RejectedTransaction where
  transaction : Digest
  reason : String
  deriving DecidableEq, Repr, Inhabited

namespace RejectedTransaction

instance : Wire RejectedTransaction where
  encode r := Wire.encode r.transaction ++ Wire.encode r.reason
  decode := do
    let transaction ← Wire.decode
    let reason ← Wire.decode
    return { transaction, reason }

/-- The fields of a rejected transaction as JSON. -/
def fields : Json.Record RejectedTransaction :=
  RejectedTransaction.mk <$> .field "tx_hash" <*> .field "reason"

instance : Json.Codec RejectedTransaction where
  toJson r := Json.record
    [("tx_hash", Json.toJson r.transaction), ("reason", Json.toJson r.reason)]
  ofJson := fields.ofJson

end RejectedTransaction

/-- What the execution of a block has come to. -/
@[ext]
structure BlockResult where
  block : Digest
  receipts : List Receipt
  rejected : List RejectedTransaction
  gasUsed : Gas
  paidFees : Balance
  destroyed : Std.ExtTreeSet Address
  receiptsRoot : Digest
  deriving DecidableEq, Inhabited

namespace BlockResult

instance : Wire BlockResult where
  encode r :=
    Wire.encode r.block ++ Wire.encode r.receipts ++ Wire.encode r.rejected ++
      Wire.encode r.gasUsed ++ Wire.encode r.paidFees ++ Wire.encode r.destroyed ++
      Wire.encode r.receiptsRoot
  decode := do
    let block ← Wire.decode
    let receipts ← Wire.decode
    let rejected ← Wire.decode
    let gasUsed ← Wire.decode
    let paidFees ← Wire.decode
    let destroyed ← Wire.decode
    let receiptsRoot ← Wire.decode
    return { block, receipts, rejected, gasUsed, paidFees, destroyed, receiptsRoot }

/-- The fields of a block result as JSON. -/
def fields : Json.Record BlockResult :=
  BlockResult.mk <$> .field "block_hash" <*> .field "receipts" <*> .field "rejected"
    <*> .field "gas_used" <*> .field "paid_fees" <*> .field "deleted_accounts"
    <*> .field "receipts_root"

instance : Json.Codec BlockResult where
  toJson r := Json.record
    [("block_hash", Json.toJson r.block), ("receipts", Json.toJson r.receipts),
     ("rejected", Json.toJson r.rejected), ("gas_used", Json.toJson r.gasUsed),
     ("paid_fees", Json.toJson r.paidFees), ("deleted_accounts", Json.toJson r.destroyed),
     ("receipts_root", Json.toJson r.receiptsRoot)]
  ofJson := fields.ofJson

end BlockResult

/-- Executes blocks of a chain. -/
structure BlockExecutor where
  chain : ChainConfig
  interpreter : Interpreter := Interpreter.passive
  registry : Registry := Registry.standard
  invocation : Invocation.Maker := Invocation.ofTransaction
  runsPrograms : Bool := true
  blocks : BlockIndex := {}
  receipts : ReceiptIndex := {}
  senders : SenderCache := SenderCache.ofCapacity chain.limits.senderCacheSize.toNat

/-- How far the execution of a block has come. -/
structure BlockProgress where
  view : View
  senders : SenderCache
  receipts : List Receipt := []
  rejected : List RejectedTransaction := []
  destroyed : Std.ExtTreeSet Address := ∅
  gasUsed : Gas := 0
  paidFees : Balance := 0
  /-- the accepted transactions, each as it was executed -/
  runs : List (Job × Execution) := []

/-- What the execution of a block gives: its result, the state, and how each accepted transaction
was executed. -/
structure BlockOutcome where
  result : BlockResult
  view : View
  runs : List (Job × Execution)
  executor : BlockExecutor

namespace BlockProgress

/-- The job of the next transaction. -/
def job (p : BlockProgress) (context : Context) (t : Transaction) : Job :=
  { context
    transaction := t
    index := p.receipts.length
    gasBefore := p.gasUsed
    destroyedInBlock := p.destroyed }

/-- Executes the next transaction. -/
def step (context : Context) (p : BlockProgress) (t : Transaction) : BlockProgress :=
  let j := p.job context t
  let e := j.execute p.view p.senders
  if e.accepted then
    { view := e.outer
      senders := e.senders
      receipts := p.receipts ++ [j.receipt e]
      rejected := p.rejected
      destroyed := p.destroyed.insertMany e.result.destroyed.toList
      gasUsed := Gas.add p.gasUsed (j.gasUsed e)
      paidFees := Unsigned.addSat p.paidFees e.paidFees
      runs := p.runs ++ [(j, e)] }
  else
    { p with
      senders := e.senders
      rejected := p.rejected ++ [⟨t.hash, e.errorText⟩] }

end BlockProgress

namespace BlockExecutor

/-- The context of a block. -/
def context (x : BlockExecutor) (header : Header) : Context :=
  { Context.ofChain x.chain header x.blocks x.receipts x.interpreter with
    registry := x.registry
    invocation := x.invocation
    runsPrograms := x.runsPrograms }

/-- Adds the receipts of a block by their place. -/
def addReceipts (index : ReceiptIndex) (block : Digest) (receipts : List Receipt) : ReceiptIndex :=
  (receipts.zipIdx).foldl (fun index (receipt, place) => index.add block place receipt) index

/-- The Merkle root over receipts. -/
def receiptsRoot (receipts : List Receipt) : Digest :=
  Merkle.root (receipts.map Wire.encode)

/-- Executes a block on a state. -/
def execute (x : BlockExecutor) (block : Block) (state : View) : BlockOutcome :=
  let p := block.transactions.foldl (BlockProgress.step (x.context block.header))
    { view := state.push, senders := x.senders }
  { result :=
      { block := block.hash
        receipts := p.receipts
        rejected := p.rejected
        gasUsed := p.gasUsed
        paidFees := p.paidFees
        destroyed := p.destroyed
        receiptsRoot := receiptsRoot p.receipts }
    view := p.view.commit.pop
    runs := p.runs
    executor :=
      { x with
        blocks := x.blocks.save block.header
        receipts := addReceipts x.receipts block.hash p.receipts
        senders := p.senders } }

end BlockExecutor

/-- The traces of executed transactions by their digests; of two with the same digest the later
one is kept. -/
def tracesOf (runs : List (Job × Execution)) : Std.ExtTreeMap Digest Trace :=
  runs.foldl (fun traces (j, e) => traces.insert j.transaction.hash (j.trace e)) ∅

end LedgerExec
