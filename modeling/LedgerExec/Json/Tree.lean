import LedgerExec.Hex
set_option autoImplicit false

/-!
# JSON trees

A tree stands both for a value that is written and for a text that is read.  A
text that stops being JSON somewhere still has a tree: it ends in a `broken`
leaf at that place, so what stands before the place can be looked at first.  Two
further liberties serve reading: a number keeps its spelling, and a string that
names half of a surrogate pair, which is grammatical but spells no text, is
`text none`.  Members of an object keep their order and may repeat a key.
-/

namespace LedgerExec

/-- A JSON value, or as much of one as a text holds. -/
inductive Json where
  | null
  | bool (value : Bool)
  /-- a number in its spelling -/
  | number (lexeme : List Char)
  /-- a string; `none` if it spells no text -/
  | text (value : Option String)
  | array (items : List Json)
  | object (members : List (Option String × Json))
  /-- the text stops being JSON here -/
  | broken
  deriving Repr, Inhabited

namespace Json

/-! ## Making trees -/

/-- A natural number. -/
def nat (n : Nat) : Json := .number (Nat.toDigits 10 n)

/-- A string. -/
def string (s : String) : Json := .text (some s)

/-- An object with the given members. -/
def record (members : List (String × Json)) : Json :=
  .object (members.map fun member => (some member.1, member.2))

/-! ## Looking at trees -/

mutual
/-- Whether every node of a tree satisfies a test. -/
def every (test : Json → Bool) : Json → Bool
  | .array items => test (.array items) && everyItem test items
  | .object members => test (.object members) && everyMember test members
  | leaf => test leaf

/-- Whether every node of a list of trees satisfies a test. -/
def everyItem (test : Json → Bool) : List Json → Bool
  | [] => true
  | item :: rest => every test item && everyItem test rest

/-- Whether every node below an object's members satisfies a test. -/
def everyMember (test : Json → Bool) : List (Option String × Json) → Bool
  | [] => true
  | (_, value) :: rest => every test value && everyMember test rest
end

mutual
/-- How many arrays and objects stand around the innermost value. -/
def depth : Json → Nat
  | .array items => depthItems items + 1
  | .object members => depthMembers members + 1
  | _ => 0

/-- The greatest depth in a list of trees. -/
def depthItems : List Json → Nat
  | [] => 0
  | item :: rest => max (depth item) (depthItems rest)

/-- The greatest depth below an object's members. -/
def depthMembers : List (Option String × Json) → Nat
  | [] => 0
  | (_, value) :: rest => max (depth value) (depthMembers rest)
end

/-- Whether the tree is that of a grammatical text. -/
def isWhole (tree : Json) : Bool :=
  tree.every fun
    | .broken => false
    | _ => true

/-! ## Numbers -/

/-- The value of a digit. -/
def digitValue (c : Char) : Nat := c.toNat - 48

/-- Whether a character is a decimal digit. -/
def isDigit (c : Char) : Bool := '0' ≤ c && c ≤ '9'

/-- The number that a run of digits spells. -/
def digitsValue (digits : List Char) : Nat :=
  digits.foldl (fun value digit => 10 * value + digitValue digit) 0

/-- The natural number that a number's spelling is, if it has no sign, fraction or exponent. -/
def natural? (lexeme : List Char) : Option Nat :=
  if lexeme.all isDigit then some (digitsValue lexeme) else none

/-- A natural number rounded to its 53 leading bits, a tie going to the even neighbour. -/
def roundTo53 (n : Nat) : Nat :=
  let excess := n.log2 + 1 - 53
  let unit := 1 <<< excess
  let floor := n / unit
  let rest := n % unit
  let up := unit < 2 * rest || unit = 2 * rest && floor % 2 = 1
  (if up then floor + 1 else floor) * unit

/-- The leading digits of a number as one that fits in 64 bits, and how many digits follow. -/
def leading64 : Nat → List Char → Nat × Nat
  | value, [] => (value, 0)
  | value, digit :: rest =>
    let next := 10 * value + digitValue digit
    if next < 1 <<< 64 then leading64 next rest else (value, rest.length + 1)

/-- Whether a number's spelling is within the range of double precision: the leading digits,
cut to 64 bits, are scaled by the power of ten, each of the two and their product rounded. -/
def isFinite (lexeme : List Char) : Bool :=
  let body := lexeme.dropWhile (· == '-')
  let whole := body.takeWhile isDigit
  let afterWhole := body.dropWhile isDigit
  let fraction := match afterWhole with
    | '.' :: rest => rest.takeWhile isDigit
    | _ => []
  let afterFraction := match afterWhole with
    | '.' :: rest => rest.dropWhile isDigit
    | rest => rest
  let (lead, skipped) := leading64 0 whole
  let (significand, left) := leading64 lead fraction
  let exponent : Int := match afterFraction with
    | _ :: '-' :: digits => -(digitsValue digits : Int)
    | _ :: '+' :: digits => digitsValue digits
    | _ :: digits => digitsValue digits
    | [] => 0
  let power : Int := skipped + exponent - (fraction.length - left : Nat)
  if significand = 0 ∨ power < 0 then true
  else if 308 < power then false
  else roundTo53 significand * roundTo53 (Nat.pow 10 power.toNat) < (1 <<< 1024) - (1 <<< 970)

/-- Whether the tree is that of a text whose strings all spell texts and whose numbers are all
within the range of double precision. -/
def isStrict (tree : Json) : Bool :=
  tree.every fun
    | .broken => false
    | .number lexeme => isFinite lexeme
    | .text value => value.isSome
    | .object members => members.all (·.1.isSome)
    | _ => true

end Json

end LedgerExec
