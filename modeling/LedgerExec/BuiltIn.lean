import LedgerExec.Store
import LedgerExec.Trace
set_option autoImplicit false

/-!
# Built-in contracts

Some addresses answer calls without any code.  A built-in contract says what gas
a call needs, answers it, and tells of the calls that it has made for the answer:
all from the data and, once it has been shown one, from its environment.  A
registry gives each address its contract and, where there is one, the upgrade that
has to be active for it.
-/

namespace LedgerExec

/-- Why a built-in contract refuses a call. -/
inductive BuiltInFault where
  | invalidInput (reason : String)
  | notAnAncestor (requested current : Height)
  | blockNotFound (number : Height)
  /-- the contract has not been shown its environment -/
  | notInitialized
  deriving DecidableEq, Repr, Inhabited

/-- The wording of a refusal. -/
def BuiltInFault.message : BuiltInFault → String
  | .invalidInput reason => s!"Invalid input: {reason}"
  | .notAnAncestor requested current =>
    s!"Block {requested} is not an ancestor of block {current}"
  | .blockNotFound number => s!"Block {number} not found"
  | .notInitialized => "Contract used before init"

/-- What a built-in contract is shown before a call. -/
structure BuiltInEnv where
  transaction : Transaction
  block : Header
  blocks : BlockIndex
  receipts : ReceiptIndex

/-- A contract without code. -/
structure BuiltIn where
  /-- the gas that a call with this data needs, as far as it is known without an environment -/
  requiredGas : Bytes → Gas
  /-- the answer to a call -/
  answer : Option BuiltInEnv → Bytes → Except BuiltInFault Bytes
  /-- the calls made while answering, as far as they are known without an environment -/
  subtraces : List Subtrace := []
  /-- the gas that a call with this data needs in an environment -/
  requiredGasIn : BuiltInEnv → Bytes → Gas := fun _ => requiredGas
  /-- the calls made while answering this data in an environment -/
  subtracesIn : BuiltInEnv → Bytes → List Subtrace := fun _ _ => subtraces

namespace BuiltIn

/-- The number of 32-byte words that a byte string fills, the last one in part. -/
def wordCount (data : Bytes) : Gas := Unsigned.clamp 64 ((data.length + 31) / 32)

/-- A charge and a price per word of data. -/
def perWord (base price : Gas) (data : Bytes) : Gas := Gas.add base (Gas.mul price (wordCount data))

/-- Answers with the data itself. -/
def identity : BuiltIn where
  requiredGas := perWord 15 3
  answer _ data := .ok data

/-- Answers with the digest of the data. -/
def blake3 : BuiltIn where
  requiredGas := perWord 60 12
  answer _ data := .ok (Blake3.digest data)

/-- The block number that data of at most 32 bytes spells. -/
def blockNumber (data : Bytes) : Except BuiltInFault Height :=
  if 32 < data.length then
    .error (.invalidInput s!"block number must fit in 32 bytes, got {data.length}")
  else
    match Unsigned.ofNat? 64 (Bytes.ofBigEndian data) with
    | some number => .ok number
    | none => .error (.invalidInput "block number overflows u64")

/-- Answers with the digest of the earlier block that the data names.  Without an environment
no block is earlier. -/
def blockHash : BuiltIn where
  requiredGas _ := 800
  answer env data := do
    let number ← blockNumber data
    let current : Height := (env.map (·.block.number)).getD 0
    if current ≤ number then .error (.notAnAncestor number current)
    else
      match env with
      | none => .error .notInitialized
      | some env =>
        match env.blocks.hash? number with
        | some hash => .ok hash.toBytes
        | none => .error (.blockNotFound number)

/-- The text that shows what the block-hash contract has been shown. -/
def describeBlockHash (env : Option BuiltInEnv) : String :=
  let current : Height := (env.map (·.block.number)).getD 0
  let initialized := if env.isSome then "true" else "false"
  s!"BlockHash \x7b current_block: {current}, initialized: {initialized} \x7d"

/-! ## Addresses -/

/-- The address of the digest contract. -/
def blake3Address : Address := Octets.ofNat .address 0x02

/-- The address of the identity contract. -/
def identityAddress : Address := Octets.ofNat .address 0x04

/-- The address of the block-hash contract. -/
def blockHashAddress : Address := Octets.ofNat .address 0x01000004

/-- The protocol account that may collect the fees. -/
def feeCollectorAddress : Address := Octets.ofNat .address 0x01000008

end BuiltIn

/-! ## Registries -/

/-- A contract, and the upgrade that has to be active for it. -/
structure RegistryEntry where
  contract : BuiltIn
  upgrade : Option Upgrade

/-- Which addresses are built-in contracts. -/
structure Registry where
  entries : Std.ExtTreeMap Address RegistryEntry := ∅

namespace Registry

/-- Adds a contract. -/
def register (r : Registry) (address : Address) (upgrade : Option Upgrade) (contract : BuiltIn) :
    Registry :=
  ⟨r.entries.insert address { contract, upgrade }⟩

/-- The contracts of the protocol. -/
def standard : Registry :=
  Registry.register {} BuiltIn.identityAddress none BuiltIn.identity
    |>.register BuiltIn.blake3Address none BuiltIn.blake3
    |>.register BuiltIn.blockHashAddress (some .blockHashBuiltIn) BuiltIn.blockHash

/-- The contract at an address, if it exists in the block. -/
def contract? (r : Registry) (active : ActiveUpgrades) (address : Address) : Option BuiltIn :=
  match r.entries[address]? with
  | none => none
  | some entry =>
    match entry.upgrade with
    | none => some entry.contract
    | some upgrade => if active.has upgrade then some entry.contract else none

/-- The registered addresses. -/
def addresses (r : Registry) : List Address := r.entries.keys

/-- The text that shows the registered addresses byte by byte. -/
def describe (r : Registry) : String :=
  let one (address : Address) : String :=
    "Address([" ++ ", ".intercalate (address.toBytes.map fun byte => toString byte.toNat) ++ "])"
  "\x7b" ++ ", ".intercalate (r.addresses.map one) ++ "\x7d"

end Registry

end LedgerExec
