import Std.Data.ExtTreeMap
import Std.Data.ExtTreeSet
set_option autoImplicit false

/-!
# Unsigned numbers of a fixed width

Gas, balances, nonces, heights, addresses and digests are natural numbers below
a power of two.  `Unsigned width` is that range, whatever the width, and its
arithmetic never wraps: an operation saturates at the ends of the range
(`addSat`, `subSat`, `mulSat`) or says that there is no result (`sub?`).  Every
operation is pinned by one lemma about `toNat`, so a proof moves to `Nat` and
stays there.

The order is the order of the numbers.  It is lawful, which makes `Unsigned` a
key of the standard library's ordered maps and sets.
-/

namespace LedgerExec

/-- A natural number below `2 ^ width`. -/
@[ext]
structure Unsigned (width : Nat) where
  toNat : Nat
  isLt : toNat < 1 <<< width
  deriving DecidableEq, Repr

namespace Unsigned

variable {width : Nat}

theorem one_shiftLeft_pos (width : Nat) : 0 < 1 <<< width := by
  rw [Nat.one_shiftLeft]
  exact Nat.two_pow_pos width

/-! ## Making numbers -/

/-- The number itself if it is in range. -/
def ofNat? (width n : Nat) : Option (Unsigned width) :=
  if h : n < 1 <<< width then some ⟨n, h⟩ else none

/-- The low-order `width` bits of a number. -/
def truncate (width n : Nat) : Unsigned width :=
  ⟨n % (1 <<< width), Nat.mod_lt _ (one_shiftLeft_pos width)⟩

/-- The number itself, or the greatest one if it is out of range. -/
def clamp (width n : Nat) : Unsigned width :=
  ⟨min n ((1 <<< width) - 1), by
    have := one_shiftLeft_pos width
    omega⟩

instance {n : Nat} : OfNat (Unsigned width) n := ⟨truncate width n⟩

instance : Inhabited (Unsigned width) := ⟨0⟩

/-- The greatest number of the width. -/
def greatest (width : Nat) : Unsigned width :=
  ⟨(1 <<< width) - 1, by
    have := one_shiftLeft_pos width
    omega⟩

@[simp] theorem toNat_truncate (n : Nat) : (truncate width n).toNat = n % (1 <<< width) := rfl

@[simp] theorem toNat_clamp (n : Nat) : (clamp width n).toNat = min n ((1 <<< width) - 1) := rfl

@[simp] theorem toNat_zero : (0 : Unsigned width).toNat = 0 := Nat.zero_mod _

@[simp] theorem toNat_greatest : (greatest width).toNat = (1 <<< width) - 1 := rfl

theorem ofNat?_toNat (x : Unsigned width) : ofNat? width x.toNat = some x := by
  simp [ofNat?, x.isLt]

theorem toNat_of_ofNat? {n : Nat} {x : Unsigned width} (h : ofNat? width n = some x) :
    x.toNat = n := by
  unfold ofNat? at h
  split at h
  · exact (Option.some.inj h) ▸ rfl
  · simp at h

theorem ofNat?_eq_some_iff {n : Nat} {x : Unsigned width} :
    ofNat? width n = some x ↔ x.toNat = n :=
  ⟨toNat_of_ofNat?, fun h => h ▸ ofNat?_toNat x⟩

theorem toNat_inj {x y : Unsigned width} : x.toNat = y.toNat ↔ x = y :=
  ⟨Unsigned.ext, congrArg _⟩

/-! ## Order -/

instance : LE (Unsigned width) := ⟨fun x y => x.toNat ≤ y.toNat⟩

instance : LT (Unsigned width) := ⟨fun x y => x.toNat < y.toNat⟩

instance (x y : Unsigned width) : Decidable (x ≤ y) :=
  inferInstanceAs (Decidable (x.toNat ≤ y.toNat))

instance (x y : Unsigned width) : Decidable (x < y) :=
  inferInstanceAs (Decidable (x.toNat < y.toNat))

instance : Min (Unsigned width) := ⟨fun x y => if x ≤ y then x else y⟩

instance : Ord (Unsigned width) := ⟨fun x y => compare x.toNat y.toNat⟩

theorem le_iff {x y : Unsigned width} : x ≤ y ↔ x.toNat ≤ y.toNat := Iff.rfl

theorem lt_iff {x y : Unsigned width} : x < y ↔ x.toNat < y.toNat := Iff.rfl

@[simp] theorem toNat_min (x y : Unsigned width) :
    (min x y).toNat = min x.toNat y.toNat := by
  change (if x ≤ y then x else y).toNat = _
  split <;> rename_i h <;> rw [le_iff] at h <;> omega

instance : Std.TransOrd (Unsigned width) where
  eq_swap {x y} := Std.OrientedOrd.eq_swap (a := x.toNat) (b := y.toNat)
  isLE_trans {x y z} := Std.TransOrd.isLE_trans (a := x.toNat) (b := y.toNat) (c := z.toNat)

instance : Std.LawfulEqOrd (Unsigned width) where
  compare_self {x} := Std.ReflOrd.compare_self (a := x.toNat)
  eq_of_compare {x y} h :=
    Unsigned.ext (Std.LawfulEqOrd.eq_of_compare (a := x.toNat) (b := y.toNat) h)

/-! ## Arithmetic -/

/-- Sum, stopping at the greatest number. -/
def addSat (x y : Unsigned width) : Unsigned width := clamp width (x.toNat + y.toNat)

/-- Difference, stopping at zero. -/
def subSat (x y : Unsigned width) : Unsigned width :=
  ⟨x.toNat - y.toNat, Nat.lt_of_le_of_lt (Nat.sub_le _ _) x.isLt⟩

/-- Product, stopping at the greatest number. -/
def mulSat (x y : Unsigned width) : Unsigned width := clamp width (x.toNat * y.toNat)

/-- Sum, if it is in range. -/
def add? (x y : Unsigned width) : Option (Unsigned width) := ofNat? width (x.toNat + y.toNat)

/-- Difference, if it is not negative. -/
def sub? (x y : Unsigned width) : Option (Unsigned width) :=
  if y ≤ x then some (subSat x y) else none

@[simp] theorem toNat_addSat (x y : Unsigned width) :
    (addSat x y).toNat = min (x.toNat + y.toNat) ((1 <<< width) - 1) := rfl

@[simp] theorem toNat_subSat (x y : Unsigned width) :
    (subSat x y).toNat = x.toNat - y.toNat := rfl

@[simp] theorem toNat_mulSat (x y : Unsigned width) :
    (mulSat x y).toNat = min (x.toNat * y.toNat) ((1 <<< width) - 1) := rfl

theorem add?_eq_some_iff {x y z : Unsigned width} :
    add? x y = some z ↔ z.toNat = x.toNat + y.toNat := ofNat?_eq_some_iff

theorem sub?_eq_none_iff {x y : Unsigned width} : sub? x y = none ↔ x.toNat < y.toNat := by
  simp [sub?, le_iff]

theorem sub?_eq_some_iff {x y z : Unsigned width} :
    sub? x y = some z ↔ z.toNat + y.toNat = x.toNat := by
  simp only [sub?, le_iff]
  split
  · rw [Option.some.injEq, ← toNat_inj, toNat_subSat]
    omega
  · simp only [reduceCtorEq, false_iff]
    omega

/-- The same number in another width, or the greatest one there. -/
def resize (wanted : Nat) (x : Unsigned width) : Unsigned wanted := clamp wanted x.toNat

instance : ToString (Unsigned width) := ⟨fun x => toString x.toNat⟩

end Unsigned

end LedgerExec
