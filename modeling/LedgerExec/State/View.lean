import LedgerExec.State.Layer
set_option autoImplicit false

/-!
# Views of the state

A view reads through a pile of layers and writes to the topmost one.  `push`
starts a view on top of another; `commit` hands the writes of the top layer to
the one below, `rollback` forgets them, `pop` goes back to the view below.  On
the root view `commit` and `rollback` do nothing.

All that is done with accounts (crediting, transferring, creating) is derived
from reading and writing whole accounts and words.
-/

namespace LedgerExec

/-- Why a state operation is refused. -/
inductive StateFault where
  /-- a debit beyond the balance -/
  | insufficientBalance (address : Address) (available required : Balance)
  deriving DecidableEq, Repr, Inhabited

/-- The wording of a refusal. -/
def StateFault.message : StateFault → String
  | .insufficientBalance address available required =>
    s!"Balance insuffisante pour {address.display}: disponible={available}, requis={required}"

/-- A pile of layers: the topmost, and those below it down to the root. -/
@[ext]
structure View where
  top : Layer := {}
  below : List Layer := []
  deriving DecidableEq, Inhabited

namespace View

/-! ## The pile -/

/-- A root view of an empty state. -/
def root : View := {}

/-- Whether nothing is below the top layer. -/
def isRoot (v : View) : Bool := v.below.isEmpty

/-- The layers, the topmost first. -/
def layers (v : View) : List Layer := v.top :: v.below

/-- A view on top of this one, without writes. -/
def push (v : View) : View := ⟨{}, v.layers⟩

/-- The view below; the root view itself. -/
def pop (v : View) : View :=
  match v.below with
  | [] => v
  | l :: below => ⟨l, below⟩

/-- Hands the writes of the top layer to the layer below. -/
def commit (v : View) : View :=
  match v.below with
  | [] => v
  | l :: below => ⟨{}, l.absorb below.isEmpty v.top :: below⟩

/-- Forgets the writes of the top layer. -/
def rollback (v : View) : View := if v.isRoot then v else { v with top := {} }

/-! ## Accounts and words -/

/-- The account at an address. -/
def account? (v : View) (address : Address) : Option Account := Layer.account? v.layers address

/-- The account at an address, a new one if there is none. -/
def accountOrFresh (v : View) (address : Address) : Account :=
  (v.account? address).getD Account.fresh

/-- The word at a key of an account. -/
def word (v : View) (address : Address) (key : Word) : Word := Layer.word v.layers ⟨address, key⟩

/-- Every account. -/
def accounts (v : View) : Std.ExtTreeMap Address Account := Layer.accountsOf v.layers

/-- Writes an account. -/
def put (v : View) (address : Address) (account : Account) : View :=
  { v with top := v.top.setAccount v.isRoot address (some account) }

/-- Removes an account and its storage. -/
def delete (v : View) (address : Address) : View :=
  { v with top := v.top.delete v.isRoot address }

/-- Writes a word. -/
def store (v : View) (address : Address) (key value : Word) : View :=
  { v with top := v.top.setWord v.isRoot ⟨address, key⟩ value }

/-- Whether there is an account at an address. -/
def hasAccount (v : View) (address : Address) : Bool := (v.account? address).isSome

/-- Whether there is a contract at an address. -/
def hasContract (v : View) (address : Address) : Bool :=
  ((v.account? address).map (·.isContract)).getD false

/-- The balance of an address, zero without an account. -/
def balance (v : View) (address : Address) : Balance :=
  ((v.account? address).map (·.balance)).getD 0

/-- The nonce of an address, zero without an account. -/
def nonce (v : View) (address : Address) : Nonce :=
  ((v.account? address).map (·.nonce)).getD 0

/-- The code at an address. -/
def code? (v : View) (address : Address) : Option Bytes := (v.account? address).bind (·.code)

/-! ## Operations on accounts -/

/-- Adds to a balance, making the account if there is none. -/
def credit (v : View) (address : Address) (amount : Balance) : View :=
  let account := v.accountOrFresh address
  v.put address { account with balance := Unsigned.addSat account.balance amount }

/-- Takes from a balance. -/
def debit (v : View) (address : Address) (amount : Balance) : Except StateFault View :=
  let account := v.accountOrFresh address
  match Unsigned.sub? account.balance amount with
  | some balance => .ok (v.put address { account with balance })
  | none => .error (.insufficientBalance address account.balance amount)

/-- Moves an amount between two accounts. -/
def transfer (v : View) (source target : Address) (amount : Balance) : Except StateFault View := do
  let v ← v.debit source amount
  return v.credit target amount

/-- Counts one more transaction of an account. -/
def raiseNonce (v : View) (address : Address) : View :=
  let account := v.accountOrFresh address
  v.put address { account with nonce := Unsigned.addSat account.nonce 1 }

/-- Gives an account code; empty code is no code. -/
def saveCode (v : View) (address : Address) (code : Bytes) : View :=
  let account := v.accountOrFresh address
  v.put address { account with code := if code.isEmpty then none else some code }

/-- Puts a new account in the place of whatever was there. -/
def create (v : View) (address : Address) : View := (v.delete address).put address Account.fresh

/-- Makes an account a contract with empty storage. -/
def setUpContract (v : View) (address : Address) : View :=
  let account := v.accountOrFresh address
  v.put address { account with isContract := true, storageRoot := some Account.emptyStorageRoot }

/-- A root view of the given accounts. -/
def ofAccounts (accounts : List (Address × Account)) : View :=
  accounts.foldl (fun v (address, account) => v.put address account) root

end View

/-- The address of the contract that a sender creates with a transaction of the given nonce. -/
def contractAddress (sender : Address) (nonce : Nonce) : Address :=
  Address.ofDigest (Digest.tagged (Bytes.ofText "contract_address:")
    [sender.toBytes, Bytes.bigEndian 8 nonce.toNat])

end LedgerExec
