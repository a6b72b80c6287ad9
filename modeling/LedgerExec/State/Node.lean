import LedgerExec.State.View
set_option autoImplicit false

/-!
# Trie nodes for storage rent

Rent is charged for the nodes that an account occupies: the node of the account
itself and, for a contract, those of its code and of its storage root.  A node is
named by a tagged digest of the address, and its length is counted in 24 bits.
-/

namespace LedgerExec

/-- The length of a node. -/
abbrev NodeLength : Type := Unsigned 32

namespace NodeLength

/-- The greatest length that is counted. -/
def greatest : Nat := (1 <<< 24) - 1

/-- A length, or the greatest one. -/
def ofNat (n : Nat) : NodeLength :=
  ⟨min n greatest, by
    unfold greatest
    omega⟩

end NodeLength

/-- A node of the trie: its key and its length. -/
abbrev TrieNode : Type := Word × NodeLength

namespace View

/-- The node of the account at an address. -/
def accountNode (v : View) (address : Address) : TrieNode :=
  ((Digest.tagged (Bytes.ofText "account:") [address.toBytes]).toWord,
   NodeLength.ofNat (((v.account? address).map (·.node.length)).getD 0))

/-- The node of the code at an address. -/
def codeNode (v : View) (address : Address) : TrieNode :=
  ((Digest.tagged (Bytes.ofText "code:") [address.toBytes]).toWord,
   NodeLength.ofNat (((v.code? address).map (·.length)).getD 0))

/-- The node of the storage root at an address; a root takes one byte. -/
def storageRootNode (v : View) (address : Address) : TrieNode :=
  ((Digest.tagged (Bytes.ofText "storage:") [address.toBytes]).toWord,
   NodeLength.ofNat (if ((v.account? address).bind (·.storageRoot)).isSome then 1 else 0))

/-- The nodes that the account at an address occupies. -/
def nodes (v : View) (address : Address) : List TrieNode :=
  if v.hasContract address then
    [v.accountNode address, v.codeNode address, v.storageRootNode address]
  else [v.accountNode address]

end View

end LedgerExec
