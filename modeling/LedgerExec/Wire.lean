import LedgerExec.Octets
set_option autoImplicit false

/-!
# The binary layout

Consensus values are hashed and signed in one binary layout: numbers are
little-endian and as wide as their type, a sequence, a text or a map is preceded
by the number of its entries in eight bytes, an optional value by one byte, a
case of an enumeration by its index in four bytes, and fixed-length byte strings
are written as they are, except signatures, which carry their length.

Every layout is a writer beside a reader.  A reader consumes what belongs to its
value and leaves the rest, so readers follow each other as writers do.
-/

namespace LedgerExec

namespace Wire

/-- A reader: consumes the front of the input, or finds no value there. -/
abbrev Step (α : Type) : Type := StateT Bytes Option α

end Wire

/-- A type with a binary layout. -/
class Wire (α : Type) where
  /-- the bytes of a value -/
  encode : α → Bytes
  /-- the value at the front of the input -/
  decode : Wire.Step α

namespace Wire

variable {α β : Type}

/-- No value. -/
def fail : Step α := fun _ => none

/-- The next bytes, if there are that many. -/
def take (count : Nat) : Step Bytes := fun input =>
  if count ≤ input.length then some (input.take count, input.drop count) else none

/-- The value at the front of a byte string, whatever follows it. -/
def decodeFront? [Wire α] (bytes : Bytes) : Option α :=
  ((Wire.decode (α := α)).run bytes).map (·.1)

/-! ## Numbers -/

/-- The number of bytes of a width in bits. -/
def byteCount (width : Nat) : Nat := (width + 7) / 8

instance {width : Nat} : Wire (Unsigned width) where
  encode x := Bytes.littleEndian (byteCount width) x.toNat
  decode := do
    let bytes ← take (byteCount width)
    match Unsigned.ofNat? width (Bytes.ofLittleEndian bytes) with
    | some x => return x
    | none => fail

instance : Wire UInt8 where
  encode x := [x]
  decode
    | [] => none
    | byte :: rest => some (byte, rest)

instance : Wire Bool where
  encode x := [if x then 1 else 0]
  decode
    | 0 :: rest => some (false, rest)
    | 1 :: rest => some (true, rest)
    | _ => none

/-- The layout of a length. -/
def encodeLength (count : Nat) : Bytes := Bytes.littleEndian 8 count

/-- Reads a length. -/
def decodeLength : Step Nat := do
  let bytes ← take 8
  return Bytes.ofLittleEndian bytes

/-- The layout of the index of a case. -/
def encodeCase (index : Nat) : Bytes := Bytes.littleEndian 4 index

/-- Reads the index of a case. -/
def decodeCase : Step Nat := do
  let bytes ← take 4
  return Bytes.ofLittleEndian bytes

/-! ## Byte strings and texts -/

/-- Whether byte strings of a kind are preceded by their length. -/
def isCounted : OctetKind → Bool
  | .signature => true
  | _ => false

instance {kind : OctetKind} : Wire (Octets kind) where
  encode x := if isCounted kind then encodeLength kind.size ++ x.toBytes else x.toBytes
  decode := do
    let count ← if isCounted kind then decodeLength else pure kind.size
    let bytes ← take count
    match Octets.ofBytes? kind bytes with
    | some x => return x
    | none => fail

instance : Wire String where
  encode text := encodeLength (Bytes.ofText text).length ++ Bytes.ofText text
  decode := do
    let count ← decodeLength
    let bytes ← take count
    match Bytes.toText? bytes with
    | some text => return text
    | none => fail

/-! ## Compound values -/

instance [Wire α] : Wire (Option α) where
  encode
    | none => [0]
    | some x => 1 :: Wire.encode x
  decode := do
    if (← Wire.decode (α := Bool)) then
      return some (← Wire.decode)
    else
      return none

instance [Wire α] [Wire β] : Wire (α × β) where
  encode x := Wire.encode x.1 ++ Wire.encode x.2
  decode := do
    let first ← Wire.decode
    let second ← Wire.decode
    return (first, second)

/-- Reads a number of values. -/
def decodeMany [Wire α] : Nat → Step (List α)
  | 0 => return []
  | count + 1 => do
    let first ← Wire.decode
    let rest ← decodeMany count
    return first :: rest

instance [Wire α] : Wire (List α) where
  encode xs := encodeLength xs.length ++ xs.flatMap Wire.encode
  decode := do decodeMany (← decodeLength)

instance {κ : Type} [Ord κ] [Std.TransOrd κ] [Wire κ] [Wire α] :
    Wire (Std.ExtTreeMap κ α) where
  encode m := Wire.encode m.toList
  decode := do
    let entries : List (κ × α) ← Wire.decode
    return Std.ExtTreeMap.ofList entries compare

instance {κ : Type} [Ord κ] [Std.TransOrd κ] [Wire κ] : Wire (Std.ExtTreeSet κ) where
  encode s := Wire.encode s.toList
  decode := do
    let entries : List κ ← Wire.decode
    return Std.ExtTreeSet.ofList entries compare

end Wire

end LedgerExec
