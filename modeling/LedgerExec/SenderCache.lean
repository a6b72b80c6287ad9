import LedgerExec.Transaction
set_option autoImplicit false

/-!
# The cache of senders

Senders of transactions are kept by the digest of the transaction, the most
recently used first.  Looking one up makes it the most recent; when the cache is
full the least recent one gives way.
-/

namespace LedgerExec

/-- The senders of recent transactions. -/
structure SenderCache where
  /-- how many senders are kept, at least one -/
  capacity : Nat
  /-- the most recently used first -/
  entries : List (Digest × Address) := []
  deriving DecidableEq, Repr, Inhabited

namespace SenderCache

/-- How many senders are kept when nothing else is said. -/
def defaultCapacity : Nat := 10000

/-- An empty cache; a capacity of zero counts as one. -/
def ofCapacity (capacity : Nat) : SenderCache := { capacity := max capacity 1 }

/-- The sender kept under a digest. -/
def find? (c : SenderCache) (hash : Digest) : Option Address :=
  (c.entries.find? (·.1 = hash)).map (·.2)

/-- Whether a sender is kept under a digest. -/
def has (c : SenderCache) (hash : Digest) : Bool := (c.find? hash).isSome

/-- Puts a sender in front, dropping the last one if there are too many. -/
def put (c : SenderCache) (hash : Digest) (sender : Address) : SenderCache :=
  { c with
    entries := ((hash, sender) :: c.entries.filter fun entry => entry.1 ≠ hash).take c.capacity }

/-- Keeps the sender of a transaction. -/
def store (c : SenderCache) (t : Transaction) : SenderCache := c.put t.hash t.sender

/-- The sender of a transaction, from the cache or found out and kept. -/
def sender (c : SenderCache) (t : Transaction) : Address × SenderCache :=
  match c.find? t.hash with
  | some address => (address, c.put t.hash address)
  | none => (t.sender, c.store t)

/-- The number of senders kept. -/
def size (c : SenderCache) : Nat := c.entries.length

end SenderCache

end LedgerExec
