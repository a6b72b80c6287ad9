import LedgerExec.Account
set_option autoImplicit false

/-!
# Layers of state

A layer holds the writes that one view has made on top of the view below it: an
account or the mark that it is deleted, a word of storage, and the accounts whose
storage below is hidden.  The lowest layer, the root, holds the state itself.  It
has nothing below it to hide, so there a deleted account and a zero word are
simply absent and nothing is ever marked as wiped.
-/

namespace LedgerExec

/-- A place of storage: a key of an account. -/
@[ext]
structure Slot where
  address : Address
  key : Word
  deriving DecidableEq, Repr, Inhabited

namespace Slot

instance : Ord Slot := ⟨compareLex (compareOn (·.address)) (compareOn (·.key))⟩

instance : Std.TransOrd Slot :=
  inferInstanceAs (Std.TransCmp (compareLex (compareOn Slot.address) (compareOn Slot.key)))

instance : Std.LawfulEqOrd Slot where
  compare_self {x} := Std.ReflCmp.compare_self (a := x)
  eq_of_compare {x y} h := by
    rw [show compare x y = compareLex (compareOn Slot.address) (compareOn Slot.key) x y from rfl,
      compareLex_eq_eq] at h
    exact Slot.ext (Std.LawfulEqOrd.eq_of_compare h.1) (Std.LawfulEqOrd.eq_of_compare h.2)

end Slot

/-- The writes of one view. -/
@[ext]
structure Layer where
  /-- the accounts written; `none` marks a deleted one -/
  accounts : Std.ExtTreeMap Address (Option Account) := ∅
  /-- the words written -/
  storage : Std.ExtTreeMap Slot Word := ∅
  /-- the accounts whose storage in the layers below is hidden -/
  wiped : Std.ExtTreeSet Address := ∅
  deriving DecidableEq, Inhabited

namespace Layer

/-- A layer without writes. -/
def empty : Layer := {}

/-- Writes an account, or that it is deleted. -/
def setAccount (isRoot : Bool) (l : Layer) (address : Address) (entry : Option Account) : Layer :=
  if isRoot && entry.isNone then { l with accounts := l.accounts.erase address }
  else { l with accounts := l.accounts.insert address entry }

/-- Writes a word. -/
def setWord (isRoot : Bool) (l : Layer) (slot : Slot) (word : Word) : Layer :=
  if isRoot && word.isZero then { l with storage := l.storage.erase slot }
  else { l with storage := l.storage.insert slot word }

/-- Drops the storage of an account. -/
def wipe (isRoot : Bool) (l : Layer) (address : Address) : Layer :=
  { l with
    storage := l.storage.filter fun slot _ => slot.address != address
    wiped := if isRoot then l.wiped else l.wiped.insert address }

/-- Removes an account and its storage. -/
def delete (isRoot : Bool) (l : Layer) (address : Address) : Layer :=
  (l.setAccount isRoot address none).wipe isRoot address

/-- Takes over the writes of the layer above: first what it hides, then its accounts, then its
words. -/
def absorb (isRoot : Bool) (l above : Layer) : Layer :=
  let l := above.wiped.toList.foldl (wipe isRoot) l
  let l := above.accounts.toList.foldl (fun l (address, entry) => l.setAccount isRoot address entry) l
  above.storage.toList.foldl (fun l (slot, word) => l.setWord isRoot slot word) l

/-! ## Reading through layers, the topmost first -/

/-- The account that a pile of layers shows. -/
def account? : List Layer → Address → Option Account
  | [], _ => none
  | l :: below, address =>
    match l.accounts[address]? with
    | some entry => entry
    | none => account? below address

/-- The word that a pile of layers shows. -/
def word : List Layer → Slot → Word
  | [], _ => Octets.zero
  | l :: below, slot =>
    match l.storage[slot]? with
    | some value => value
    | none => if l.wiped.contains slot.address then Octets.zero else word below slot

/-- Every account that a pile of layers shows. -/
def accountsOf : List Layer → Std.ExtTreeMap Address Account
  | [] => ∅
  | l :: below =>
    l.accounts.toList.foldl (fun shown (address, entry) =>
      match entry with
      | some account => shown.insert address account
      | none => shown.erase address) (accountsOf below)

end Layer

end LedgerExec
