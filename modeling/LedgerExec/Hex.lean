import LedgerExec.Bytes
set_option autoImplicit false

/-!
# Hexadecimal text

Bytes are written as two lower-case digits each and read in either case.  A text
is read through its UTF-8 bytes, so the position in a fault counts bytes and a
character outside ASCII is reported at its first byte.  An odd number of digits
is noticed before any bad digit.

Two ways of dropping a leading `0x` are in use: `unmarked` drops every one,
`unmarkedOnce` at most one.
-/

namespace LedgerExec

namespace Hex

/-! ## Faults -/

/-- Why a text is not the hexadecimal spelling of the bytes wanted. -/
inductive Fault where
  /-- the digits do not pair up -/
  | oddLength
  /-- a byte of the text is no digit -/
  | badDigit (byte : UInt8) (position : Nat)
  /-- the digits spell another number of bytes than wanted -/
  | wrongLength
  deriving DecidableEq, Repr, Inhabited

/-- The digit that stands for a value below 16. -/
def digit (value : Nat) : Char :=
  if value < 10 then Char.ofNat (48 + value) else Char.ofNat (87 + value)

/-- The value of a digit in either case. -/
def digitValue? (byte : UInt8) : Option Nat :=
  let code := byte.toNat
  if 48 ≤ code ∧ code ≤ 57 then some (code - 48)
  else if 97 ≤ code ∧ code ≤ 102 then some (code - 87)
  else if 65 ≤ code ∧ code ≤ 70 then some (code - 55)
  else none

/-- Whether the character of this code below 256 is shown as itself: the controls, the
no-break space and the soft hyphen are not. -/
def isShown (code : Nat) : Bool :=
  32 ≤ code && code ≤ 126 || 161 ≤ code && code ≠ 173

/-- Lower-case hexadecimal digits of a number, without leading zeros. -/
def digitsOf (value : Nat) : String := String.ofList (Nat.toDigits 16 value)

/-- A byte shown as the quoted Latin-1 character it stands for, escaped where it cannot be
shown. -/
def quoted (byte : UInt8) : String :=
  let code := byte.toNat
  let body :=
    if code = 0 then "\\0"
    else if code = 9 then "\\t"
    else if code = 10 then "\\n"
    else if code = 13 then "\\r"
    else if code = 39 then "\\'"
    else if code = 92 then "\\\\"
    else if isShown code then String.singleton (Char.ofNat code)
    else "\\u\x7b" ++ digitsOf code ++ "\x7d"
  "'" ++ body ++ "'"

/-- The wording of a fault. -/
def Fault.message : Fault → String
  | .oddLength => "Odd number of digits"
  | .badDigit byte position => s!"Invalid character {quoted byte} at position {position}"
  | .wrongLength => "Invalid string length"

/-! ## Writing -/

/-- The digits of a byte string. -/
def digits (bytes : Bytes) : List Char :=
  bytes.flatMap fun byte => [digit (byte.toNat / 16), digit (byte.toNat % 16)]

/-- The lower-case spelling of a byte string. -/
def encode (bytes : Bytes) : String := String.ofList (digits bytes)

/-- The lower-case spelling after a `0x`. -/
def encodeMarked (bytes : Bytes) : String := "0x" ++ encode bytes

/-! ## Reading -/

/-- The value of the digit at a position. -/
def digitAt (byte : UInt8) (position : Nat) : Except Fault Nat :=
  match digitValue? byte with
  | some value => .ok value
  | none => .error (.badDigit byte position)

/-- Reads pairs of digits, the first of which stands at `position`. -/
def decodePairs : Bytes → Nat → Except Fault Bytes
  | [], _ => .ok []
  | [_], _ => .error .oddLength
  | high :: low :: rest, position => do
    let h ← digitAt high position
    let l ← digitAt low (position + 1)
    let tail ← decodePairs rest (position + 2)
    return UInt8.ofNat (16 * h + l) :: tail

/-- The bytes spelled by a text given as bytes. -/
def decode (text : Bytes) : Except Fault Bytes :=
  if text.length % 2 = 1 then .error .oddLength else decodePairs text 0

/-- The text without the `0x` marks it starts with, however many there are. -/
def unmarked : Bytes → Bytes
  | 48 :: 120 :: rest => unmarked rest
  | text => text

/-- The text without the `0x` mark it starts with, if there is one. -/
def unmarkedOnce : Bytes → Bytes
  | 48 :: 120 :: rest => rest
  | text => text

/-- The bytes spelled by a text after any number of `0x` marks. -/
def decodeMarked (text : String) : Except Fault Bytes := decode (unmarked (Bytes.ofText text))

/-! ## Lemmas -/

theorem digitValue?_digit {value : Nat} (h : value < 16) :
    digitValue? (UInt8.ofNat (digit value).toNat) = some value := by
  have cases : ∀ v : Fin 16, digitValue? (UInt8.ofNat (digit v).toNat) = some v.val := by decide
  exact cases ⟨value, h⟩

theorem length_digits (bytes : Bytes) : (digits bytes).length = 2 * bytes.length := by
  induction bytes with
  | nil => rfl
  | cons byte rest ih =>
    simp only [digits, List.flatMap_cons, List.length_append, List.length_cons, List.length_nil]
      at ih ⊢
    omega

end Hex

end LedgerExec
