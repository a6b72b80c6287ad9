import LedgerExec.BlockExecution
set_option autoImplicit false

/-!
# The first block

A genesis names the accounts that exist before any transaction.  Building it
gives the header of block zero and the state; an account with code is set up as a
contract.
-/

namespace LedgerExec

/-- An account of the genesis; its code is hexadecimal text. -/
@[ext]
structure GenesisAccount where
  balance : Balance
  nonce : Nonce := 0
  code : Option String := none
  deriving DecidableEq, Repr, Inhabited

namespace GenesisAccount

instance : Wire GenesisAccount where
  encode a := Wire.encode a.balance ++ Wire.encode a.nonce ++ Account.encodePresent a.code
  decode := do
    let balance ← Wire.decode
    let nonce ← Wire.decode
    let code ← Wire.decode
    return { balance, nonce, code }

/-- The fields of an account as JSON. -/
def fields : Json.Record GenesisAccount :=
  GenesisAccount.mk <$> .field "balance" <*> .fieldOr "nonce" 0 <*> .fieldOr "code" none

instance : Json.Codec GenesisAccount where
  toJson a := Json.record (
    [("balance", Json.toJson a.balance), ("nonce", Json.toJson a.nonce)]
      ++ Json.member? "code" a.code)
  ofJson := fields.ofJson

end GenesisAccount

/-- The first block of a chain and the accounts before it. -/
@[ext]
structure Genesis where
  timestamp : Timestamp
  gasLimit : Gas
  coinbase : Address := Octets.zero
  accounts : Std.ExtTreeMap Address GenesisAccount := ∅
  deriving DecidableEq, Inhabited

/-- Why a genesis can not be built. -/
inductive GenesisFault where
  /-- the code of an account is not hexadecimal -/
  | invalidCode (address : Address) (fault : Hex.Fault)
  deriving DecidableEq, Repr, Inhabited

/-- The wording of a fault. -/
def GenesisFault.message : GenesisFault → String
  | .invalidCode address fault =>
    s!"Hex invalide pour accounts.{address.display}.code: {fault.message}"

namespace Genesis

instance : Wire Genesis where
  encode g :=
    Wire.encode g.timestamp ++ Wire.encode g.gasLimit ++ Wire.encode g.coinbase ++
      Wire.encode g.accounts
  decode := do
    let timestamp ← Wire.decode
    let gasLimit ← Wire.decode
    let coinbase ← Wire.decode
    let accounts ← Wire.decode
    return { timestamp, gasLimit, coinbase, accounts }

/-- The fields of a genesis as JSON. -/
def fields : Json.Record Genesis :=
  Genesis.mk <$> .field "timestamp" <*> .field "gas_limit" <*> .fieldOr "coinbase" Octets.zero
    <*> .fieldOr "accounts" ∅

instance : Json.Codec Genesis where
  toJson g := Json.record
    [("timestamp", Json.toJson g.timestamp), ("gas_limit", Json.toJson g.gasLimit),
     ("coinbase", Json.toJson g.coinbase), ("accounts", Json.toJson g.accounts)]
  ofJson := fields.ofJson

/-- The genesis without accounts, at the first second of 2025. -/
def empty : Genesis := { timestamp := 1735689600, gasLimit := 6800000 }

/-- The genesis of one account with a balance. -/
def ofAccount (address : Address) (balance : Balance) : Genesis :=
  { empty with accounts := Std.ExtTreeMap.ofList [(address, { balance })] compare }

/-- The header of block zero. -/
def header (g : Genesis) : Header where
  number := 0
  parentHash := Octets.zero
  coinbase := g.coinbase
  timestamp := g.timestamp
  gasLimit := g.gasLimit

/-- Adds an account to a state. -/
def addAccount (v : View) (address : Address) (a : GenesisAccount) : Except GenesisFault View := do
  let code ←
    match a.code with
    | none => Except.ok []
    | some text => (Hex.decodeMarked text).mapError (.invalidCode address)
  let v := v.put address { balance := a.balance, nonce := a.nonce }
  return if code.isEmpty then v else (v.setUpContract address).saveCode address code

/-- The header of block zero and the state before it. -/
def build (g : Genesis) : Except GenesisFault (Header × View) := do
  let v ← g.accounts.toList.foldlM (fun v (address, a) => addAccount v address a) View.root
  return (g.header, v)

end Genesis

end LedgerExec
