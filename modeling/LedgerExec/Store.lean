import LedgerExec.Block
import LedgerExec.Receipt
set_option autoImplicit false

/-!
# What is known of earlier blocks

`BlockIndex` keeps the digests of the blocks by number, `ReceiptIndex` the
receipts by transaction, each with the place of the transaction in the chain.
Adding under a known number or transaction replaces what was there.
-/

namespace LedgerExec

/-- The digests of the blocks. -/
structure BlockIndex where
  hashes : Std.ExtTreeMap Height Digest := ∅
  deriving DecidableEq, Inhabited

namespace BlockIndex

/-- The digest of the block of a number. -/
def hash? (b : BlockIndex) (number : Height) : Option Digest := b.hashes[number]?

/-- Adds a block. -/
def save (b : BlockIndex) (header : Header) : BlockIndex :=
  ⟨b.hashes.insert header.number header.hash⟩

/-- The greatest number of a block. -/
def best? (b : BlockIndex) : Option Height := b.hashes.toList.getLast?.map (·.1)

end BlockIndex

/-- A receipt with the place of its transaction. -/
@[ext]
structure InclusionRecord where
  block : Digest
  index : Count
  receipt : Receipt
  deriving DecidableEq, Repr, Inhabited

namespace InclusionRecord

instance : Wire InclusionRecord where
  encode r := Wire.encode r.block ++ Wire.encode r.index ++ Wire.encode r.receipt
  decode := do
    let block ← Wire.decode
    let index ← Wire.decode
    let receipt ← Wire.decode
    return { block, index, receipt }

/-- The fields of a record as JSON. -/
def fields : Json.Record InclusionRecord :=
  InclusionRecord.mk <$> .field "block_hash" <*> .field "tx_index" <*> .field "receipt"

instance : Json.Codec InclusionRecord where
  toJson r := Json.record
    [("block_hash", Json.toJson r.block), ("tx_index", Json.toJson r.index),
     ("receipt", Json.toJson r.receipt)]
  ofJson := fields.ofJson

end InclusionRecord

/-- The receipts of the transactions included so far. -/
structure ReceiptIndex where
  records : Std.ExtTreeMap Digest InclusionRecord := ∅
  deriving DecidableEq, Inhabited

namespace ReceiptIndex

/-- Adds a receipt. -/
def add (r : ReceiptIndex) (block : Digest) (index : Nat) (receipt : Receipt) : ReceiptIndex :=
  ⟨r.records.insert receipt.transaction ⟨block, Unsigned.clamp 64 index, receipt⟩⟩

/-- What is known of a transaction. -/
def get? (r : ReceiptIndex) (transaction : Digest) : Option InclusionRecord :=
  r.records[transaction]?

/-- The number of receipts. -/
def count (r : ReceiptIndex) : Nat := r.records.size

end ReceiptIndex

end LedgerExec
