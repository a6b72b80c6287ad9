import LedgerExec.RunResult
set_option autoImplicit false

/-!
# Settlements

When an executed transaction is finalised its gas is settled: what is left over
and what is refunded goes back to the sender, the rest is the fee.
-/

namespace LedgerExec

/-- The balance sheet of a transaction. -/
@[ext]
structure Settlement where
  transaction : Digest
  value : Balance
  gasPrice : Balance
  gasLimit : Gas
  /-- the gas that the run used, before refunds -/
  gasUsed : Gas
  /-- the gas that was not spent, before refunds -/
  gasLeft : Gas
  gasRefund : Gas
  logs : List Log
  destroyed : Std.ExtTreeSet Address
  calls : List InternalCall
  output : Bytes
  failed : Bool
  deriving DecidableEq, Inhabited

namespace Settlement

/-- The money for the gas left over. -/
def leftover (s : Settlement) : Balance := s.gasLeft.price s.gasPrice

/-- The money for the gas refunded. -/
def refund (s : Settlement) : Balance := s.gasRefund.price s.gasPrice

/-- The money for all other gas. -/
def fee (s : Settlement) : Balance :=
  let back : Gas := Unsigned.addSat s.gasLeft s.gasRefund
  Gas.price (Unsigned.subSat s.gasLimit back) s.gasPrice

instance : Wire Settlement where
  encode s :=
    Wire.encode s.transaction ++ Wire.encode s.value ++ Wire.encode s.gasPrice ++
      Wire.encode s.gasLimit ++ Wire.encode s.gasUsed ++ Wire.encode s.gasLeft ++
      Wire.encode s.gasRefund ++ Wire.encode s.logs ++ Wire.encode s.destroyed ++
      Wire.encode s.calls ++ Wire.encode s.output ++ Wire.encode s.failed
  decode := do
    let transaction ← Wire.decode
    let value ← Wire.decode
    let gasPrice ← Wire.decode
    let gasLimit ← Wire.decode
    let gasUsed ← Wire.decode
    let gasLeft ← Wire.decode
    let gasRefund ← Wire.decode
    let logs ← Wire.decode
    let destroyed ← Wire.decode
    let calls ← Wire.decode
    let output ← Wire.decode
    let failed ← Wire.decode
    return { transaction, value, gasPrice, gasLimit, gasUsed, gasLeft, gasRefund, logs, destroyed,
             calls, output, failed }

/-- The fields of a settlement as JSON. -/
def fields : Json.Record Settlement :=
  Settlement.mk <$> .field "tx_hash" <*> .field "value" <*> .field "gas_price"
    <*> .field "gas_limit" <*> .field "gas_used" <*> .field "gas_leftover"
    <*> .field "gas_refund" <*> .field "logs" <*> .field "deleted_accounts"
    <*> .field "internal_transactions" <*> .field "result" <*> .field "failed"

instance : Json.Codec Settlement where
  toJson s := Json.record
    [("tx_hash", Json.toJson s.transaction), ("value", Json.toJson s.value),
     ("gas_price", Json.toJson s.gasPrice), ("gas_limit", Json.toJson s.gasLimit),
     ("gas_used", Json.toJson s.gasUsed), ("gas_leftover", Json.toJson s.gasLeft),
     ("gas_refund", Json.toJson s.gasRefund), ("logs", Json.toJson s.logs),
     ("deleted_accounts", Json.toJson s.destroyed),
     ("internal_transactions", Json.toJson s.calls), ("result", Json.toJson s.output),
     ("failed", Json.toJson s.failed)]
  ofJson := fields.ofJson

end Settlement

end LedgerExec
