import LedgerExec.Upgrade
set_option autoImplicit false

/-!
# Gas arithmetic

Every gas quantity has the same ceiling, `2 ^ 63 - 1`.  Sums and products stop
there; a difference that would be negative is a fault.  `GasRules` are the two
arithmetics that the chain has had: under the legacy rules differences stop at
zero, sums at the end of the word, and the check before a built-in contract
leaves out the intrinsic cost.
-/

namespace LedgerExec

/-- Why a gas computation has no result. -/
inductive GasFault where
  /-- a negative difference -/
  | underflow (x y : Gas)
  /-- more gas needed than is left -/
  | shortage (needed remaining : Gas)
  deriving DecidableEq, Repr, Inhabited

/-- The wording of a fault. -/
def GasFault.message : GasFault → String
  | .underflow x y => s!"Invalid gas subtraction: {x} - {y}"
  | .shortage needed remaining => s!"Gas insuffisant: besoin de {needed}, reste {remaining}"

namespace Gas

/-- The greatest gas quantity. -/
def ceiling : Gas := ⟨(1 <<< 63) - 1, by decide⟩

/-- A quantity cut to the ceiling. -/
def cap (x : Gas) : Gas := min x ceiling

/-- Sum up to the ceiling. -/
def add (x y : Gas) : Gas := cap (Unsigned.addSat x y)

/-- Difference, if it is not negative. -/
def sub (x y : Gas) : Except GasFault Gas :=
  match Unsigned.sub? x y with
  | some z => .ok z
  | none => .error (.underflow x y)

/-- Product up to the ceiling. -/
def mul (x y : Gas) : Gas := cap (Unsigned.mulSat x y)

/-- What a quantity of gas costs, up to the greatest balance. -/
def price (gas : Gas) (unit : Balance) : Balance := Unsigned.mulSat (gas.resize 128) unit

/-- Half of a quantity, rounded down. -/
def half (x : Gas) : Gas := ⟨x.toNat / 2, Nat.lt_of_le_of_lt (Nat.div_le_self _ _) x.isLt⟩

/-- A refund cut to half of the gas used. -/
def cappedRefund (refund used : Gas) : Gas := min refund (half used)

/-! ## Prices -/

/-- The charge for every transaction that calls an account. -/
def forCall : Gas := 21000

/-- The charge for every transaction that creates a contract. -/
def forCreation : Gas := 53000

/-- The charge for a zero byte of data. -/
def perZeroByte : Gas := 4

/-- The charge for any other byte of data. -/
def perDataByte : Gas := 68

/-- The charge for a byte of deposited code. -/
def perCodeByte : Gas := 200

/-- The refund for an account that destroys itself. -/
def perDestruction : Gas := 24000

/-! ## Lemmas -/

@[simp] theorem toNat_ceiling : ceiling.toNat = (1 <<< 63) - 1 := rfl

@[simp] theorem toNat_cap (x : Gas) : (cap x).toNat = min x.toNat ((1 <<< 63) - 1) := by
  simp [cap]

theorem toNat_add (x y : Gas) : (add x y).toNat = min (x.toNat + y.toNat) ((1 <<< 63) - 1) := by
  simp only [add, toNat_cap, Unsigned.toNat_addSat]
  omega

theorem toNat_mul (x y : Gas) : (mul x y).toNat = min (x.toNat * y.toNat) ((1 <<< 63) - 1) := by
  simp only [mul, toNat_cap, Unsigned.toNat_mulSat]
  omega

theorem sub_eq_ok_iff {x y z : Gas} : sub x y = .ok z ↔ z.toNat + y.toNat = x.toNat := by
  rw [← Unsigned.sub?_eq_some_iff]
  unfold sub
  cases Unsigned.sub? x y <;> simp

theorem sub_eq_error_iff {x y : Gas} {fault : GasFault} :
    sub x y = .error fault ↔ x.toNat < y.toNat ∧ fault = .underflow x y := by
  rw [← Unsigned.sub?_eq_none_iff]
  unfold sub
  cases Unsigned.sub? x y <;> simp [eq_comm]

theorem toNat_price (gas : Gas) (unit : Balance) :
    (price gas unit).toNat = min (gas.toNat * unit.toNat) ((1 <<< 128) - 1) := by
  have h : (gas.resize 128).toNat = gas.toNat := by
    have := gas.isLt
    simp only [Unsigned.resize, Unsigned.toNat_clamp]
    omega
  rw [price, Unsigned.toNat_mulSat, h]

theorem toNat_half (x : Gas) : (half x).toNat = x.toNat / 2 := rfl

end Gas

/-- Which gas arithmetic is in force. -/
inductive GasRules where
  | legacy
  | strict
  deriving DecidableEq, Repr, Inhabited

namespace GasRules

/-- The arithmetic in force in a block. -/
def ofUpgrades (active : ActiveUpgrades) : GasRules :=
  if active.has .strictGas then .strict else .legacy

/-- Whether a limit is enough for a built-in contract that asks for `required` gas, `used` with
the intrinsic cost. -/
def hasEnough (rules : GasRules) (limit required used : Gas) : Bool :=
  match rules with
  | .legacy => required ≤ limit
  | .strict => used ≤ limit

/-- Difference of two quantities. -/
def sub (rules : GasRules) (x y : Gas) : Except GasFault Gas :=
  match rules with
  | .legacy => .ok (Unsigned.subSat x y)
  | .strict => Gas.sub x y

/-- Difference of two quantities, or nothing. -/
def subOrZero (rules : GasRules) (x y : Gas) : Gas :=
  match rules.sub x y with
  | .ok z => z
  | .error _ => 0

/-- Sum of two quantities. -/
def add (rules : GasRules) (x y : Gas) : Gas :=
  match rules with
  | .legacy => Unsigned.addSat x y
  | .strict => Gas.add x y

end GasRules

end LedgerExec
