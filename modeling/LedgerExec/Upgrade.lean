import LedgerExec.Wire
import LedgerExec.Json.Codec
set_option autoImplicit false

/-!
# Protocol upgrades and their activation heights

An upgrade changes how transactions are executed from some height on.  An
`UpgradeSchedule` gives the height of each; an upgrade that it does not name is
never active.  `ActiveUpgrades` is the schedule as one block sees it.
-/

namespace LedgerExec

/-- A change of the execution rules. -/
inductive Upgrade where
  /-- gas arithmetic is checked, and a built-in contract needs its whole charge -/
  | strictGas
  /-- calls of the setup target are charged -/
  | paidSetup
  /-- the contract that answers block hashes exists -/
  | blockHashBuiltIn
  deriving DecidableEq, Repr, Inhabited

namespace Upgrade

/-- The place of an upgrade in the list of all. -/
def index : Upgrade → Nat
  | .strictGas => 0
  | .paidSetup => 1
  | .blockHashBuiltIn => 2

/-- Every upgrade, in order. -/
def all : List Upgrade := [.strictGas, .paidSetup, .blockHashBuiltIn]

/-- The name of an upgrade in configuration files. -/
def name : Upgrade → String
  | .strictGas => "strict_gas_arithmetic"
  | .paidSetup => "paid_setup_calls"
  | .blockHashBuiltIn => "block_hash_precompile"

/-- The upgrade of a name. -/
def ofName? (s : String) : Option Upgrade := all.find? (·.name == s)

instance : Ord Upgrade := ⟨fun x y => compare x.index y.index⟩

theorem index_inj {x y : Upgrade} (h : x.index = y.index) : x = y := by
  cases x <;> cases y <;> first | rfl | simp [index] at h

instance : Std.TransOrd Upgrade where
  eq_swap {x y} := Std.OrientedOrd.eq_swap (a := x.index) (b := y.index)
  isLE_trans {x y z} := Std.TransOrd.isLE_trans (a := x.index) (b := y.index) (c := z.index)

instance : Std.LawfulEqOrd Upgrade where
  compare_self {x} := Std.ReflOrd.compare_self (a := x.index)
  eq_of_compare {x y} h := index_inj (Std.LawfulEqOrd.eq_of_compare (a := x.index) (b := y.index) h)

theorem ofName?_name (x : Upgrade) : ofName? x.name = some x := by
  cases x <;> decide

instance : Json.Key Upgrade where
  toKey := name
  ofKey s :=
    match ofName? s with
    | some x => .ok x
    | none => .error .malformed

instance : Json.Codec Upgrade where
  toJson x := Json.string x.name
  ofJson := Json.readCase fun s payload => do Json.bare (← Json.Key.ofKey s) payload

instance : Wire Upgrade where
  encode x := Wire.encodeCase x.index
  decode := do
    match all[← Wire.decodeCase]? with
    | some x => return x
    | none => Wire.fail

end Upgrade

/-- From which height on each upgrade is active. -/
structure UpgradeSchedule where
  heights : Std.ExtTreeMap Upgrade Height
  deriving DecidableEq, Repr, Inhabited

/-- The upgrades that are active in one block. -/
structure ActiveUpgrades where
  height : Height
  active : List Upgrade
  deriving DecidableEq, Repr, Inhabited

namespace UpgradeSchedule

/-- Every upgrade from the first block on. -/
def allActive : UpgradeSchedule := ⟨Std.ExtTreeMap.ofList (Upgrade.all.map (·, 0)) compare⟩

/-- No upgrade ever. -/
def none : UpgradeSchedule := ⟨∅⟩

/-- The schedule with another height for one upgrade. -/
def activate (s : UpgradeSchedule) (upgrade : Upgrade) (height : Height) : UpgradeSchedule :=
  ⟨s.heights.insert upgrade height⟩

/-- The schedule without one upgrade. -/
def without (s : UpgradeSchedule) (upgrade : Upgrade) : UpgradeSchedule :=
  ⟨s.heights.erase upgrade⟩

/-- What the schedule says of one block. -/
def atHeight (s : UpgradeSchedule) (height : Height) : ActiveUpgrades :=
  ⟨height, Upgrade.all.filter fun upgrade =>
    match s.heights[upgrade]? with
    | some from_ => from_ ≤ height
    | Option.none => false⟩

/-- The fields of a schedule as JSON. -/
def fields : Json.Record UpgradeSchedule := UpgradeSchedule.mk <$> Json.Record.field "rules"

instance : Json.Codec UpgradeSchedule where
  toJson s := Json.record [("rules", Json.toJson s.heights)]
  ofJson := fields.ofJson

instance : Wire UpgradeSchedule where
  encode s := Wire.encode s.heights
  decode := do return ⟨← Wire.decode⟩

end UpgradeSchedule

namespace ActiveUpgrades

/-- Whether an upgrade is active. -/
def has (a : ActiveUpgrades) (upgrade : Upgrade) : Bool := a.active.contains upgrade

end ActiveUpgrades

end LedgerExec
