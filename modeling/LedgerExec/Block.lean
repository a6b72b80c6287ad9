import LedgerExec.Transaction
import LedgerExec.Merkle
set_option autoImplicit false

/-!
# Blocks

A header is chained to its parent by the parent's digest.  A block is a header
with transactions in order.
-/

namespace LedgerExec

/-- The header of a block. -/
@[ext]
structure Header where
  number : Height
  parentHash : Digest
  /-- the account that receives the fees, unless the protocol account does -/
  coinbase : Address
  timestamp : Timestamp
  gasLimit : Gas
  deriving DecidableEq, Repr, Inhabited

namespace Header

instance : Wire Header where
  encode h :=
    Wire.encode h.number ++ Wire.encode h.parentHash ++ Wire.encode h.coinbase ++
      Wire.encode h.timestamp ++ Wire.encode h.gasLimit
  decode := do
    let number ← Wire.decode
    let parentHash ← Wire.decode
    let coinbase ← Wire.decode
    let timestamp ← Wire.decode
    let gasLimit ← Wire.decode
    return { number, parentHash, coinbase, timestamp, gasLimit }

/-- The fields of a header as JSON. -/
def fields : Json.Record Header :=
  Header.mk <$> .field "number" <*> .field "parent_hash" <*> .field "coinbase"
    <*> .field "timestamp" <*> .field "gas_limit"

instance : Json.Codec Header where
  toJson h := Json.record
    [("number", Json.toJson h.number), ("parent_hash", Json.toJson h.parentHash),
     ("coinbase", Json.toJson h.coinbase), ("timestamp", Json.toJson h.timestamp),
     ("gas_limit", Json.toJson h.gasLimit)]
  ofJson := fields.ofJson

/-- The digest of a header. -/
def hash (h : Header) : Digest := Digest.ofMessage (Wire.encode h)

/-- The header of the next block, with the coinbase and gas limit of this one.  Its number is one
more.  After the block with the greatest number, which no chain reaches, there is none, and the
number stays. -/
def child (h : Header) (timestamp : Timestamp) : Header :=
  { h with number := Unsigned.addSat h.number 1, parentHash := h.hash, timestamp }

end Header

/-- A header with its transactions. -/
@[ext]
structure Block where
  header : Header
  transactions : List Transaction
  deriving DecidableEq, Repr, Inhabited

namespace Block

instance : Wire Block where
  encode b := Wire.encode b.header ++ Wire.encode b.transactions
  decode := do
    let header ← Wire.decode
    let transactions ← Wire.decode
    return { header, transactions }

/-- The fields of a block as JSON. -/
def fields : Json.Record Block := Block.mk <$> .field "header" <*> .field "transactions"

instance : Json.Codec Block where
  toJson b := Json.record
    [("header", Json.toJson b.header), ("transactions", Json.toJson b.transactions)]
  ofJson := fields.ofJson

/-- The digest of the header. -/
def hash (b : Block) : Digest := b.header.hash

/-- The Merkle root over the digests of the transactions. -/
def transactionsRoot (b : Block) : Digest :=
  Merkle.root (b.transactions.map fun transaction => transaction.hash.toBytes)

end Block

end LedgerExec
