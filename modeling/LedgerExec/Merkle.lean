import LedgerExec.Octets
set_option autoImplicit false

/-!
# Merkle roots of lists

The leaves of the tree are the digests of the entries in order.  A level is made
from the one below by hashing neighbours together; a lone last digest moves up
unchanged.  The empty list has the zero root.
-/

namespace LedgerExec.Merkle

/-- The digest above two digests. -/
def parent (left right : Digest) : Digest := Digest.ofMessage (left.toBytes ++ right.toBytes)

/-- The level above a level. -/
def nextLevel : List Digest → List Digest
  | left :: right :: rest => parent left right :: nextLevel rest
  | lone => lone

theorem length_nextLevel : ∀ level : List Digest,
    (nextLevel level).length = (level.length + 1) / 2
  | [] => rfl
  | [_] => by simp [nextLevel]
  | _ :: _ :: rest => by
    simp only [nextLevel, List.length_cons, length_nextLevel rest]
    omega

/-- The digest above a level, in at most `fuel` further levels. -/
def collapse : Nat → List Digest → Digest
  | _, [] => Octets.zero
  | _, [only] => only
  | 0, first :: _ => first
  | fuel + 1, level => collapse fuel (nextLevel level)

/-- The root over a list of entries. -/
def root (entries : List Bytes) : Digest :=
  collapse entries.length (entries.map Digest.ofMessage)

@[simp] theorem root_nil : root [] = Octets.zero := rfl

end LedgerExec.Merkle
