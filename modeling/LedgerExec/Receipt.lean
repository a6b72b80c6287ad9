import LedgerExec.Wire
import LedgerExec.Json.Codec
set_option autoImplicit false

/-!
# Logs and receipts

A contract emits logs while it runs; a log whose call was undone is marked as
rejected.  The receipt of an included transaction keeps what it was charged, how
it ended and its accepted logs.  The binary layout of the receipts is what a
block commits to.
-/

namespace LedgerExec

/-- A message that a contract has emitted. -/
@[ext]
structure Log where
  address : Address
  topics : List Word
  data : Bytes
  rejected : Bool := false
  deriving DecidableEq, Repr, Inhabited

namespace Log

instance : Wire Log where
  encode l :=
    Wire.encode l.address ++ Wire.encode l.topics ++ Wire.encode l.data ++ Wire.encode l.rejected
  decode := do
    let address ← Wire.decode
    let topics ← Wire.decode
    let data ← Wire.decode
    let rejected ← Wire.decode
    return { address, topics, data, rejected }

/-- The fields of a log as JSON. -/
def fields : Json.Record Log :=
  Log.mk <$> .field "address" <*> .field "topics" <*> .field "data" <*> .fieldOr "rejected" false

instance : Json.Codec Log where
  toJson l := Json.record
    [("address", Json.toJson l.address), ("topics", Json.toJson l.topics),
     ("data", Json.toJson l.data), ("rejected", Json.toJson l.rejected)]
  ofJson := fields.ofJson

end Log

/-- How an included transaction ended. -/
inductive Status where
  | success
  | failed
  deriving DecidableEq, Repr, Inhabited

namespace Status

/-- One byte: 1 for success. -/
def toByte : Status → UInt8
  | .success => 1
  | .failed => 0

/-- The name of a status. -/
def name : Status → String
  | .success => "Success"
  | .failed => "Failed"

instance : Wire Status where
  encode
    | .success => Wire.encodeCase 0
    | .failed => Wire.encodeCase 1
  decode := do
    match ← Wire.decodeCase with
    | 0 => return .success
    | 1 => return .failed
    | _ => Wire.fail

instance : Json.Codec Status where
  toJson s := Json.string s.name
  ofJson := Json.readCase fun s payload =>
    match s with
    | "Success" => Json.bare .success payload
    | "Failed" => Json.bare .failed payload
    | _ => .error .malformed

end Status

/-- What is kept of an included transaction. -/
@[ext]
structure Receipt where
  transaction : Digest
  /-- the gas charged in the block up to and with this transaction -/
  cumulativeGas : Gas
  gasUsed : Gas
  rentGasUsed : Gas
  status : Status
  logs : List Log
  deriving DecidableEq, Repr, Inhabited

namespace Receipt

/-- Whether the transaction ended without an error. -/
def isSuccessful (r : Receipt) : Bool := r.status == .success

instance : Wire Receipt where
  encode r :=
    Wire.encode r.transaction ++ Wire.encode r.cumulativeGas ++ Wire.encode r.gasUsed ++
      Wire.encode r.rentGasUsed ++ Wire.encode r.status ++ Wire.encode r.logs
  decode := do
    let transaction ← Wire.decode
    let cumulativeGas ← Wire.decode
    let gasUsed ← Wire.decode
    let rentGasUsed ← Wire.decode
    let status ← Wire.decode
    let logs ← Wire.decode
    return { transaction, cumulativeGas, gasUsed, rentGasUsed, status, logs }

/-- The fields of a receipt as JSON. -/
def fields : Json.Record Receipt :=
  Receipt.mk <$> .field "tx_hash" <*> .field "cumulative_gas" <*> .field "gas_used"
    <*> .field "rent_gas_used" <*> .field "status" <*> .field "logs"

instance : Json.Codec Receipt where
  toJson r := Json.record
    [("tx_hash", Json.toJson r.transaction), ("cumulative_gas", Json.toJson r.cumulativeGas),
     ("gas_used", Json.toJson r.gasUsed), ("rent_gas_used", Json.toJson r.rentGasUsed),
     ("status", Json.toJson r.status), ("logs", Json.toJson r.logs)]
  ofJson := fields.ofJson

end Receipt

end LedgerExec
