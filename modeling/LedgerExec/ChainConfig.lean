import LedgerExec.BuiltIn
import LedgerExec.Program
import LedgerExec.SenderCache
set_option autoImplicit false

/-!
# Chain configurations

What the blocks of a chain have in common: its name and number, the limits of
execution, who receives the fees, which setup calls are free, and the heights of
the upgrades.
-/

namespace LedgerExec

/-- The limits of execution. -/
@[ext]
structure Limits where
  /-- the greatest size of a contract's code -/
  maxContractSize : Count
  /-- the greatest number of bytes of a receiver -/
  maxReceiverLength : Count
  /-- whether the fees go to the collector and not to the coinbase -/
  feeToProtocol : Bool
  feeCollector : Address
  /-- how many senders are cached -/
  senderCacheSize : Count
  deriving DecidableEq, Repr, Inhabited

namespace Limits

instance : Wire Limits where
  encode l :=
    Wire.encode l.maxContractSize ++ Wire.encode l.maxReceiverLength ++
      Wire.encode l.feeToProtocol ++ Wire.encode l.feeCollector ++ Wire.encode l.senderCacheSize
  decode := do
    let maxContractSize ← Wire.decode
    let maxReceiverLength ← Wire.decode
    let feeToProtocol ← Wire.decode
    let feeCollector ← Wire.decode
    let senderCacheSize ← Wire.decode
    return { maxContractSize, maxReceiverLength, feeToProtocol, feeCollector, senderCacheSize }

/-- The fields of the limits as JSON. -/
def fields : Json.Record Limits :=
  Limits.mk <$> .field "max_contract_size" <*> .field "max_address_byte_length"
    <*> .field "fee_to_protocol_account" <*> .field "fee_collector"
    <*> .field "signature_cache_size"

instance : Json.Codec Limits where
  toJson l := Json.record
    [("max_contract_size", Json.toJson l.maxContractSize),
     ("max_address_byte_length", Json.toJson l.maxReceiverLength),
     ("fee_to_protocol_account", Json.toJson l.feeToProtocol),
     ("fee_collector", Json.toJson l.feeCollector),
     ("signature_cache_size", Json.toJson l.senderCacheSize)]
  ofJson := fields.ofJson

end Limits

/-- Calls that are free until setup calls are paid: those of the target by an authorised
sender. -/
@[ext]
structure SetupPolicy where
  target : Option Address := none
  authorized : List Address := []
  deriving DecidableEq, Repr, Inhabited

namespace SetupPolicy

/-- Whether a transaction is free. -/
def isFree (p : SetupPolicy) (t : Transaction) (active : ActiveUpgrades) : Bool :=
  if active.has .paidSetup then false
  else
    match p.target, t.receiver? with
    | some target, some receiver => target = receiver && p.authorized.contains t.sender
    | _, _ => false

instance : Wire SetupPolicy where
  encode p := Wire.encode p.target ++ Wire.encode p.authorized
  decode := do
    let target ← Wire.decode
    let authorized ← Wire.decode
    return { target, authorized }

/-- The fields of the policy as JSON. -/
def fields : Json.Record SetupPolicy :=
  SetupPolicy.mk <$> .fieldOrNull "target" <*> .field "authorized_senders"

instance : Json.Codec SetupPolicy where
  toJson p := Json.record
    [("target", Json.toJson p.target), ("authorized_senders", Json.toJson p.authorized)]
  ofJson := fields.ofJson

end SetupPolicy

/-- What the blocks of a chain have in common. -/
@[ext]
structure ChainConfig where
  name : String
  chainId : ChainId
  limits : Limits
  setup : SetupPolicy
  upgrades : UpgradeSchedule
  tracing : TraceOptions := {}
  deriving DecidableEq, Repr, Inhabited

namespace ChainConfig

instance : Wire ChainConfig where
  encode c :=
    Wire.encode c.name ++ Wire.encode c.chainId ++ Wire.encode c.limits ++ Wire.encode c.setup ++
      Wire.encode c.upgrades ++ Wire.encode c.tracing
  decode := do
    let name ← Wire.decode
    let chainId ← Wire.decode
    let limits ← Wire.decode
    let setup ← Wire.decode
    let upgrades ← Wire.decode
    let tracing ← Wire.decode
    return { name, chainId, limits, setup, upgrades, tracing }

/-- The fields of a configuration as JSON. -/
def fields : Json.Record ChainConfig :=
  ChainConfig.mk <$> .field "chain_name" <*> .field "chain_id" <*> .field "execution"
    <*> .field "setup_calls" <*> .field "activations" <*> .fieldOr "vm" {}

instance : Json.Codec ChainConfig where
  toJson c := Json.record
    [("chain_name", Json.toJson c.name), ("chain_id", Json.toJson c.chainId),
     ("execution", Json.toJson c.limits), ("setup_calls", Json.toJson c.setup),
     ("activations", Json.toJson c.upgrades), ("vm", Json.toJson c.tracing)]
  ofJson := fields.ofJson

/-- The main network: every upgrade active, fees to the protocol account. -/
def mainnet : ChainConfig where
  name := "KratOs"
  chainId := 33
  limits :=
    { maxContractSize := 0x6000
      maxReceiverLength := 20
      feeToProtocol := true
      feeCollector := BuiltIn.feeCollectorAddress
      senderCacheSize := Unsigned.clamp 64 SenderCache.defaultCapacity }
  setup := {}
  upgrades := UpgradeSchedule.allActive

/-- The local network: no upgrade, fees to the coinbase. -/
def devnet : ChainConfig :=
  { mainnet with
    name := "KratOs-dev"
    chainId := 34
    limits := { mainnet.limits with feeToProtocol := false }
    upgrades := UpgradeSchedule.none }

/-- The intrinsic cost of a transaction in a block. -/
def intrinsicCost (c : ChainConfig) (t : Transaction) (active : ActiveUpgrades) : Gas :=
  t.intrinsicCost (c.setup.isFree t active)

end ChainConfig

end LedgerExec
