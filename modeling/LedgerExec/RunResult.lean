import LedgerExec.Gas
import LedgerExec.Receipt
import LedgerExec.State.Node
set_option autoImplicit false

/-!
# What a run leaves behind

A `RunResult` collects what a program or a built-in contract does besides writing
to the state: the gas it uses, what it returns, how it fails, its logs, the
accounts it destroys, the calls it makes, refunds, code written by nested
creations, and the trie nodes that rent is charged for.
-/

namespace LedgerExec

/-- Why a run failed. -/
inductive RunFault where
  /-- a charge beyond the gas that is left -/
  | outOfGas (cause : String) (needed remaining : Gas)
  /-- gas missing for something that comes after the run -/
  | notEnoughGas (cause : String) (needed remaining : Gas)
  /-- code beyond the size of a contract -/
  | contractTooLarge (limit size : Nat)
  /-- a gas computation without a result -/
  | invalidGas (fault : GasFault)
  /-- a built-in contract refused its input -/
  | builtIn (reason : String)
  /-- value that could not be moved -/
  | transfer (fault : StateFault)
  /-- the program failed on its own account -/
  | runtime (reason : String)
  deriving DecidableEq, Repr, Inhabited

/-- The wording of a failure. -/
def RunFault.message : RunFault → String
  | .outOfGas cause needed remaining =>
    s!"Out of gas: '{cause}' needs {needed}, remaining {remaining}"
  | .notEnoughGas cause needed remaining =>
    s!"Not enough gas for '{cause}': needed {needed}, remaining {remaining}"
  | .contractTooLarge limit size => s!"Maximum contract size allowed {limit} but actual {size}"
  | .invalidGas fault => s!"Invalid gas: {fault.message}"
  | .builtIn reason => s!"Precompiled contract failure: {reason}"
  | .transfer fault => s!"Value transfer failed: {fault.message}"
  | .runtime reason => s!"Runtime failure: {reason}"

/-- A call that a program makes. -/
@[ext]
structure InternalCall where
  parentHash : Digest
  deep : Unsigned 32
  index : Unsigned 32
  sender : Address
  receiver : Option Address
  value : Balance
  data : Bytes
  note : String
  rejected : Bool
  deriving DecidableEq, Repr, Inhabited

namespace InternalCall

instance : Wire InternalCall where
  encode c :=
    Wire.encode c.parentHash ++ Wire.encode c.deep ++ Wire.encode c.index ++
      Wire.encode c.sender ++ Wire.encode c.receiver ++ Wire.encode c.value ++
      Wire.encode c.data ++ Wire.encode c.note ++ Wire.encode c.rejected
  decode := do
    let parentHash ← Wire.decode
    let deep ← Wire.decode
    let index ← Wire.decode
    let sender ← Wire.decode
    let receiver ← Wire.decode
    let value ← Wire.decode
    let data ← Wire.decode
    let note ← Wire.decode
    let rejected ← Wire.decode
    return { parentHash, deep, index, sender, receiver, value, data, note, rejected }

/-- The fields of a call as JSON. -/
def fields : Json.Record InternalCall :=
  InternalCall.mk <$> .field "parent_hash" <*> .field "deep" <*> .field "index"
    <*> .field "sender" <*> .fieldOrNull "receiver" <*> .field "value" <*> .field "data"
    <*> .field "note" <*> .field "rejected"

instance : Json.Codec InternalCall where
  toJson c := Json.record
    [("parent_hash", Json.toJson c.parentHash), ("deep", Json.toJson c.deep),
     ("index", Json.toJson c.index), ("sender", Json.toJson c.sender),
     ("receiver", Json.toJson c.receiver), ("value", Json.toJson c.value),
     ("data", Json.toJson c.data), ("note", Json.toJson c.note),
     ("rejected", Json.toJson c.rejected)]
  ofJson := fields.ofJson

end InternalCall

/-- What a run leaves behind besides the state. -/
@[ext]
structure RunResult where
  gasUsed : Gas := 0
  output : Bytes := []
  fault : Option RunFault := none
  reverted : Bool := false
  logs : List Log := []
  /-- the accounts that are removed at the end -/
  destroyed : Std.ExtTreeSet Address := ∅
  calls : List InternalCall := []
  /-- gas that is given back at the end -/
  refund : Gas := 0
  /-- code that is saved at the end -/
  codeChanges : Std.ExtTreeMap Address Bytes := ∅
  /-- the nodes that rent is charged for -/
  newNodes : Std.ExtTreeMap Word NodeLength := ∅
  deriving DecidableEq, Inhabited

namespace RunResult

/-- Counts gas as used. -/
def spend (r : RunResult) (gas : Gas) : RunResult := { r with gasUsed := Gas.add r.gasUsed gas }

/-- Counts gas to be given back. -/
def addRefund (r : RunResult) (gas : Gas) : RunResult := { r with refund := Gas.add r.refund gas }

/-- Records a failure. -/
def fail (r : RunResult) (fault : RunFault) : RunResult := { r with fault := some fault }

/-- Adds a log. -/
def addLog (r : RunResult) (log : Log) : RunResult := { r with logs := r.logs ++ [log] }

/-- Adds a call. -/
def addCall (r : RunResult) (call : InternalCall) : RunResult :=
  { r with calls := r.calls ++ [call] }

/-- Marks an account to be removed. -/
def destroy (r : RunResult) (address : Address) : RunResult :=
  { r with destroyed := r.destroyed.insert address }

/-- Records code to be saved. -/
def changeCode (r : RunResult) (address : Address) (code : Bytes) : RunResult :=
  { r with codeChanges := r.codeChanges.insert address code }

/-- Records a node. -/
def addNode (r : RunResult) (node : TrieNode) : RunResult :=
  { r with newNodes := r.newNodes.insert node.1 node.2 }

/-- The logs that are not rejected. -/
def acceptedLogs (r : RunResult) : List Log := r.logs.filter fun log => !log.rejected

/-- Drops everything that must not outlive a failed run. -/
def discard (r : RunResult) : RunResult :=
  { r with
    destroyed := ∅
    logs := []
    codeChanges := ∅
    refund := 0
    calls := r.calls.map fun call => { call with rejected := true } }

end RunResult

end LedgerExec
