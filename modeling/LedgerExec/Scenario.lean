import LedgerExec.KeyFile
import LedgerExec.LocalCall
set_option autoImplicit false

/-!
# Scenarios

A scenario is a chain, a genesis and blocks whose transactions are named by the
secret keys that sign them.  Running it builds the genesis, signs each block's
transactions with consecutive nonces for each sender, executes the blocks one
after the other, and reports the results and the final accounts.  A scenario also
serves as the state for a local call, tried on the block after the genesis.
-/

namespace LedgerExec

/-! ## Scenario files -/

/-- A transaction to be signed. -/
@[ext]
structure ScenarioTransaction where
  /-- the secret key that signs, as text -/
  secretKey : String
  /-- the nonce; without one, the sender's next -/
  nonce : Option Nonce := none
  /-- the receiver; without one, a contract is created -/
  receiver : Option Address := none
  value : Balance := 0
  gasPrice : Balance := 0
  gasLimit : Gas
  rentGasLimit : Gas := 0
  /-- the data, as hexadecimal text -/
  data : String := ""
  deriving DecidableEq, Repr, Inhabited

namespace ScenarioTransaction

instance : Wire ScenarioTransaction where
  encode t :=
    Wire.encode t.secretKey ++ Wire.encode t.nonce ++ Wire.encode t.receiver ++
      Wire.encode t.value ++ Wire.encode t.gasPrice ++ Wire.encode t.gasLimit ++
      Wire.encode t.rentGasLimit ++ Wire.encode t.data
  decode := do
    let secretKey ← Wire.decode
    let nonce ← Wire.decode
    let receiver ← Wire.decode
    let value ← Wire.decode
    let gasPrice ← Wire.decode
    let gasLimit ← Wire.decode
    let rentGasLimit ← Wire.decode
    let data ← Wire.decode
    return { secretKey, nonce, receiver, value, gasPrice, gasLimit, rentGasLimit, data }

/-- The fields of a transaction as JSON. -/
def fields : Json.Record ScenarioTransaction :=
  ScenarioTransaction.mk <$> .field "secret_key" <*> .fieldOr "nonce" none
    <*> .fieldOr "to" none <*> .fieldOr "value" 0 <*> .fieldOr "gas_price" 0
    <*> .field "gas_limit" <*> .fieldOr "rent_gas_limit" 0 <*> .fieldOr "data" ""

instance : Json.Codec ScenarioTransaction where
  toJson t := Json.record
    [("secret_key", Json.toJson t.secretKey), ("nonce", Json.toJson t.nonce),
     ("to", Json.toJson t.receiver), ("value", Json.toJson t.value),
     ("gas_price", Json.toJson t.gasPrice), ("gas_limit", Json.toJson t.gasLimit),
     ("rent_gas_limit", Json.toJson t.rentGasLimit), ("data", Json.toJson t.data)]
  ofJson := fields.ofJson

/-- The payload, with the given nonce unless the scenario fixes one. -/
def payload (t : ScenarioTransaction) (next : Nonce) (chainId : ChainId) :
    Except CommandError Payload := do
  let data ← Argument.bytes "data" t.data
  return {
    nonce := t.nonce.getD next
    gasPrice := t.gasPrice
    gasLimit := t.gasLimit
    rentGasLimit := t.rentGasLimit
    receiver := (t.receiver.map (·.toBytes)).getD []
    value := t.value
    data
    chainId }

end ScenarioTransaction

/-- A block to be executed. -/
@[ext]
structure ScenarioBlock where
  /-- the coinbase; without one, the parent's -/
  coinbase : Option Address := none
  /-- the seconds after the parent -/
  interval : Option Timestamp := none
  transactions : List ScenarioTransaction := []
  deriving DecidableEq, Repr, Inhabited

namespace ScenarioBlock

/-- The seconds between blocks when nothing else is said. -/
def defaultInterval : Timestamp := 6

instance : Wire ScenarioBlock where
  encode b := Wire.encode b.coinbase ++ Wire.encode b.interval ++ Wire.encode b.transactions
  decode := do
    let coinbase ← Wire.decode
    let interval ← Wire.decode
    let transactions ← Wire.decode
    return { coinbase, interval, transactions }

/-- The fields of a block as JSON. -/
def fields : Json.Record ScenarioBlock :=
  ScenarioBlock.mk <$> .fieldOr "coinbase" none <*> .fieldOr "interval" none
    <*> .fieldOr "transactions" []

instance : Json.Codec ScenarioBlock where
  toJson b := Json.record
    [("coinbase", Json.toJson b.coinbase), ("interval", Json.toJson b.interval),
     ("transactions", Json.toJson b.transactions)]
  ofJson := fields.ofJson

/-- The header of the block after a parent. -/
def header (b : ScenarioBlock) (parent : Header) : Header :=
  let child := parent.child (Unsigned.addSat parent.timestamp (b.interval.getD defaultInterval))
  { child with coinbase := b.coinbase.getD child.coinbase }

/-- Signs transactions in order.  `next` holds the next nonce of each sender that has signed in
this block; the first nonce of a sender comes from the state. -/
def signFrom (state : View) (chainId : ChainId) :
    Std.ExtTreeMap Address Nonce → List ScenarioTransaction →
      Except CommandError (List Transaction)
  | _, [] => .ok []
  | next, t :: rest => do
    let key ← SecretKey.parse t.secretKey
    let sender := key.publicKey.address
    let payload ← t.payload ((next[sender]?).getD (state.nonce sender)) chainId
    let signed ←
      signFrom state chainId (next.insert sender (Unsigned.addSat payload.nonce 1)) rest
    return payload.sign key :: signed

/-- The signed transactions of the block. -/
def sign (b : ScenarioBlock) (state : View) (chainId : ChainId) :
    Except CommandError (List Transaction) :=
  signFrom state chainId ∅ b.transactions

end ScenarioBlock

/-- A chain, a genesis and blocks. -/
@[ext]
structure Scenario where
  chain : ChainConfig := ChainConfig.mainnet
  genesis : Genesis := Genesis.empty
  blocks : List ScenarioBlock := []
  deriving DecidableEq, Inhabited

namespace Scenario

instance : Wire Scenario where
  encode s := Wire.encode s.chain ++ Wire.encode s.genesis ++ Wire.encode s.blocks
  decode := do
    let chain ← Wire.decode
    let genesis ← Wire.decode
    let blocks ← Wire.decode
    return { chain, genesis, blocks }

/-- The fields of a scenario as JSON. -/
def fields : Json.Record Scenario :=
  Scenario.mk <$> .fieldOr "chain" ChainConfig.mainnet <*> .fieldOr "genesis" Genesis.empty
    <*> .fieldOr "blocks" []

instance : Json.Codec Scenario where
  toJson s := Json.record
    [("chain", Json.toJson s.chain), ("genesis", Json.toJson s.genesis),
     ("blocks", Json.toJson s.blocks)]
  ofJson := fields.ofJson

/-- Reads a scenario. -/
def parse (content : String) : Except CommandError Scenario :=
  (Json.read content).mapError fun fault => .config ("Invalid scenario: " ++ fault.text)

end Scenario

/-! ## Running -/

/-- What a scenario has come to. -/
@[ext]
structure ScenarioReport where
  chain : String
  blocks : List BlockResult
  /-- the final accounts -/
  accounts : Std.ExtTreeMap Address Account
  traces : Std.ExtTreeMap Digest Trace

namespace ScenarioReport

instance : Wire ScenarioReport where
  encode r :=
    Wire.encode r.chain ++ Wire.encode r.blocks ++ Wire.encode r.accounts ++
      (if r.traces.isEmpty then [] else Wire.encode r.traces)
  decode := do
    let chain ← Wire.decode
    let blocks ← Wire.decode
    let accounts ← Wire.decode
    let traces ← Wire.decode
    return { chain, blocks, accounts, traces }

/-- Reads traces, which stand inside the report and the object that holds them. -/
def readTraces : Json → Except Json.Fault (Std.ExtTreeMap Digest Trace)
  | .object members =>
    members.foldlM (fun m (name, tree) =>
      match name with
      | none => .error .malformed
      | some name => do
        let key ← Json.Key.ofKey name
        let trace ← Trace.ofTree 2 tree
        return m.insert key trace) ∅
  | _ => .error .malformed

/-- The fields of a report as JSON. -/
def fields : Json.Record ScenarioReport :=
  ScenarioReport.mk <$> .field "chain" <*> .field "blocks" <*> .field "accounts"
    <*> .fieldWith "traces" readTraces (some ∅) (some ∅)

instance : Json.Codec ScenarioReport where
  toJson r := Json.record (
    [("chain", Json.toJson r.chain), ("blocks", Json.toJson r.blocks),
     ("accounts", Json.toJson r.accounts)]
      ++ (if r.traces.isEmpty then [] else [("traces", Json.toJson r.traces)]))
  ofJson := fields.ofJson

end ScenarioReport

/-- How far a scenario has come. -/
structure ScenarioProgress where
  executor : BlockExecutor
  parent : Header
  view : View
  /-- the blocks executed so far, each with its result and the runs in it -/
  blocks : List (Block × BlockOutcome) := []

namespace Scenario

/-- Executes the next block. -/
def step (p : ScenarioProgress) (b : ScenarioBlock) : Except CommandError ScenarioProgress := do
  let header := b.header p.parent
  let transactions ← b.sign p.view p.executor.chain.chainId
  let block : Block := { header, transactions }
  let outcome := p.executor.execute block p.view
  return {
    executor := outcome.executor
    parent := header
    view := outcome.view
    blocks := p.blocks ++ [(block, outcome)] }

/-- The genesis block executed and nothing else. -/
def start (s : Scenario) : Except CommandError ScenarioProgress := do
  let (genesis, view) ← s.genesis.build.mapError .genesis
  return {
    executor := { chain := s.chain, blocks := BlockIndex.save {} genesis }
    parent := genesis
    view }

/-- Executes the blocks. -/
def execute (s : Scenario) : Except CommandError ScenarioProgress := do
  s.blocks.foldlM step (← s.start)

/-- Runs the scenario. -/
def run (s : Scenario) (withTraces : Bool) : Except CommandError ScenarioReport := do
  let p ← s.execute
  let runs := p.blocks.flatMap fun (_, outcome) => outcome.runs
  return {
    chain := s.chain.name
    blocks := p.blocks.map fun (_, outcome) => outcome.result
    accounts := p.view.accounts
    traces := if withTraces then tracesOf runs else ∅ }

end Scenario

/-! ## Calling -/

/-- What a local call on a scenario answers. -/
@[ext]
structure CallReport where
  returnData : String
  gasUsed : Gas
  reverted : Bool
  revertReason : Option String
  error : Option String
  deriving DecidableEq, Repr, Inhabited

namespace CallReport

instance : Wire CallReport where
  encode r :=
    Wire.encode r.returnData ++ Wire.encode r.gasUsed ++ Wire.encode r.reverted ++
      Account.encodePresent r.revertReason ++ Account.encodePresent r.error
  decode := do
    let returnData ← Wire.decode
    let gasUsed ← Wire.decode
    let reverted ← Wire.decode
    let revertReason ← Wire.decode
    let error ← Wire.decode
    return { returnData, gasUsed, reverted, revertReason, error }

/-- The fields of a report as JSON. -/
def fields : Json.Record CallReport :=
  CallReport.mk <$> .field "return_data" <*> .field "gas_used" <*> .field "reverted"
    <*> .fieldOr "revert_reason" none <*> .fieldOr "error" none

instance : Json.Codec CallReport where
  toJson r := Json.record (
    [("return_data", Json.toJson r.returnData), ("gas_used", Json.toJson r.gasUsed),
     ("reverted", Json.toJson r.reverted)]
      ++ Json.member? "revert_reason" r.revertReason ++ Json.member? "error" r.error)
  ofJson := fields.ofJson

end CallReport

namespace Scenario

/-- Tries a call on the block after the genesis. -/
def call (s : Scenario) (request : CallRequest) : Except CommandError CallReport := do
  let p ← s.start
  let header := ScenarioBlock.header {} p.parent
  let context := Context.ofChain s.chain header p.executor.blocks {} Interpreter.passive
  let outcome := request.run context p.view
  return {
    returnData := Hex.encodeMarked outcome.result.output
    gasUsed := outcome.result.gasUsed
    reverted := outcome.result.reverted
    revertReason := outcome.revertReason?
    error := outcome.error.map (·.message) }

end Scenario

end LedgerExec
