import LedgerExec.Wire
import LedgerExec.Json.Codec
set_option autoImplicit false

/-!
# Accounts

An account holds a balance and counts the transactions it has sent.  A contract
also has code and a storage root; setting an account up as a contract gives it
the root of empty storage.  In both written forms a missing code or storage root
is left out altogether.
-/

namespace LedgerExec

/-- What the ledger keeps under an address. -/
@[ext]
structure Account where
  nonce : Nonce := 0
  balance : Balance := 0
  code : Option Bytes := none
  storageRoot : Option Digest := none
  isContract : Bool := false
  deriving DecidableEq, Repr, Inhabited

namespace Account

/-- The storage root of a contract that has stored nothing. -/
def emptyStorageRoot : Digest := Octets.zero

/-- A new account. -/
def fresh : Account := {}

/-- A new account with a balance. -/
def ofBalance (balance : Balance) : Account := { balance }

/-- The code, empty if there is none. -/
def codeOrEmpty (a : Account) : Bytes := a.code.getD []

/-- The layout of the account without code and storage root, as its node keeps it. -/
def node (a : Account) : Bytes :=
  Wire.encode a.nonce ++ Wire.encode a.balance ++ Wire.encode a.isContract

/-- A member of the binary layout that is left out when it is missing. -/
def encodePresent {α : Type} [Wire α] : Option α → Bytes
  | none => []
  | some x => Wire.encode (some x)

instance : Wire Account where
  encode a :=
    Wire.encode a.nonce ++ Wire.encode a.balance ++ encodePresent a.code ++
      encodePresent a.storageRoot ++ Wire.encode a.isContract
  decode := do
    let nonce ← Wire.decode
    let balance ← Wire.decode
    let code ← Wire.decode
    let storageRoot ← Wire.decode
    let isContract ← Wire.decode
    return { nonce, balance, code, storageRoot, isContract }

/-- The fields of an account as JSON. -/
def fields : Json.Record Account :=
  Account.mk <$> .field "nonce" <*> .field "balance" <*> .fieldOr "code" none
    <*> .fieldOr "storage_root" none <*> .fieldOr "is_contract" false

instance : Json.Codec Account where
  toJson a := Json.record (
    [("nonce", Json.toJson a.nonce), ("balance", Json.toJson a.balance)]
      ++ Json.member? "code" a.code ++ Json.member? "storage_root" a.storageRoot
      ++ [("is_contract", Json.toJson a.isContract)])
  ofJson := fields.ofJson

/-- The node of an account has one length. -/
@[simp] theorem length_node (a : Account) : a.node.length = 25 := by
  simp [node, Wire.encode, Wire.byteCount]

end Account

end LedgerExec
