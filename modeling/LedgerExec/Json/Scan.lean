import LedgerExec.Json.Tree
set_option autoImplicit false

/-!
# Scanning JSON text

`Json.scan` turns the front of a text into a tree and says what is left of the
text.  It never fails: where the text stops being JSON the tree holds a `broken`
leaf and nothing is left.  Blanks are the four of the JSON grammar.  The scanner
recurses on a bound taken from the length of the text.
-/

namespace LedgerExec.Json

/-- Whether a character separates tokens. -/
def isBlank (c : Char) : Bool := c = ' ' || c = '\n' || c = '\t' || c = '\r'

/-- The text from its first character that is not blank. -/
def skipBlank (input : List Char) : List Char := input.dropWhile isBlank

/-! ## Strings -/

/-- The value of a hexadecimal digit. -/
def hexValue? (c : Char) : Option Nat :=
  if c.toNat < 128 then Hex.digitValue? (UInt8.ofNat c.toNat) else none

/-- A piece of a string: a character, or a 16-bit unit given by an escape. -/
inductive Piece where
  | char (c : Char)
  | unit (value : Nat)
  deriving DecidableEq, Repr, Inhabited

/-- The unit that four hexadecimal digits spell. -/
def unitOf? (a b c d : Char) : Option Nat := do
  let a ← hexValue? a
  let b ← hexValue? b
  let c ← hexValue? c
  let d ← hexValue? d
  return ((a * 16 + b) * 16 + c) * 16 + d

/-- The character that a letter stands for after a backslash. -/
def escaped? : Char → Option Char
  | '"' => some '"'
  | '\\' => some '\\'
  | '/' => some '/'
  | 'b' => some '\x08'
  | 'f' => some '\x0c'
  | 'n' => some '\n'
  | 'r' => some '\r'
  | 't' => some '\t'
  | _ => none

/-- The pieces up to the closing quote, and the text after it. -/
def scanPieces : List Char → Option (List Piece × List Char)
  | '"' :: rest => some ([], rest)
  | '\\' :: 'u' :: a :: b :: c :: d :: rest => do
    let unit ← unitOf? a b c d
    let (pieces, left) ← scanPieces rest
    return (.unit unit :: pieces, left)
  | '\\' :: c :: rest => do
    let c ← escaped? c
    let (pieces, left) ← scanPieces rest
    return (.char c :: pieces, left)
  | c :: rest => do
    if c.toNat < 32 || c = '\\' then none
    else
      let (pieces, left) ← scanPieces rest
      return (.char c :: pieces, left)
  | [] => none

/-- The characters that pieces spell.  A high surrogate joins the low one after it; either alone
spells nothing. -/
def joinPieces : List Piece → Option (List Char)
  | [] => some []
  | .char c :: rest => (joinPieces rest).map (c :: ·)
  | .unit high :: .unit low :: rest =>
    if 0xD800 ≤ high ∧ high < 0xDC00 then
      if 0xDC00 ≤ low ∧ low < 0xE000 then
        (joinPieces rest).map
          (Char.ofNat (0x10000 + (high - 0xD800) * 0x400 + (low - 0xDC00)) :: ·)
      else none
    else if 0xDC00 ≤ high ∧ high < 0xE000 then none
    else (joinPieces (.unit low :: rest)).map (Char.ofNat high :: ·)
  | .unit value :: rest =>
    if 0xD800 ≤ value ∧ value < 0xE000 then none
    else (joinPieces rest).map (Char.ofNat value :: ·)

/-- The string after its opening quote, and the text after it. -/
def scanString (input : List Char) : Option (Option String × List Char) :=
  (scanPieces input).map fun (pieces, left) => ((joinPieces pieces).map String.ofList, left)

/-! ## Numbers -/

/-- A run of at least one digit, and the text after it. -/
def scanDigits (input : List Char) : Option (List Char × List Char) :=
  let digits := input.takeWhile isDigit
  if digits.isEmpty then none else some (digits, input.dropWhile isDigit)

/-- The whole part of a number: a zero, or digits that do not start with one. -/
def scanWhole : List Char → Option (List Char × List Char)
  | '0' :: rest => some (['0'], rest)
  | input => scanDigits input

/-- The fraction of a number, which may be missing. -/
def scanFraction : List Char → Option (List Char × List Char)
  | '.' :: rest => (scanDigits rest).map fun (digits, left) => ('.' :: digits, left)
  | input => some ([], input)

/-- The exponent of a number, which may be missing. -/
def scanExponent : List Char → Option (List Char × List Char)
  | e :: rest =>
    if e = 'e' || e = 'E' then
      match rest with
      | sign :: rest' =>
        if sign = '+' || sign = '-' then
          (scanDigits rest').map fun (digits, left) => (e :: sign :: digits, left)
        else (scanDigits rest).map fun (digits, left) => (e :: digits, left)
      | [] => none
    else some ([], e :: rest)
  | [] => some ([], [])

/-- A number without its sign. -/
def scanUnsigned (input : List Char) : Option (List Char × List Char) := do
  let (whole, input) ← scanWhole input
  let (fraction, input) ← scanFraction input
  let (exponent, input) ← scanExponent input
  return (whole ++ fraction ++ exponent, input)

/-- A number, and the text after it. -/
def scanNumber : List Char → Option (List Char × List Char)
  | '-' :: rest => (scanUnsigned rest).map fun (lexeme, left) => ('-' :: lexeme, left)
  | input => scanUnsigned input

/-! ## Values -/

mutual
/-- The value at the front of a text, and the text after it unless the value is broken. -/
def scanValue : Nat → List Char → Json × Option (List Char)
  | 0, _ => (.broken, none)
  | fuel + 1, input =>
    match skipBlank input with
    | 'n' :: 'u' :: 'l' :: 'l' :: rest => (.null, some rest)
    | 't' :: 'r' :: 'u' :: 'e' :: rest => (.bool true, some rest)
    | 'f' :: 'a' :: 'l' :: 's' :: 'e' :: rest => (.bool false, some rest)
    | '"' :: rest =>
      match scanString rest with
      | some (value, left) => (.text value, some left)
      | none => (.broken, none)
    | '[' :: rest =>
      match skipBlank rest with
      | ']' :: left => (.array [], some left)
      | input =>
        let (items, left) := scanItems fuel input
        (.array items, left)
    | '{' :: rest =>
      match skipBlank rest with
      | '}' :: left => (.object [], some left)
      | input =>
        let (members, left) := scanMembers fuel input
        (.object members, left)
    | input =>
      match scanNumber input with
      | some (lexeme, left) => (.number lexeme, some left)
      | none => (.broken, none)

/-- The items up to the closing bracket. -/
def scanItems : Nat → List Char → List Json × Option (List Char)
  | 0, _ => ([.broken], none)
  | fuel + 1, input =>
    match scanValue fuel input with
    | (item, none) => ([item], none)
    | (item, some input) =>
      match skipBlank input with
      | ']' :: left => ([item], some left)
      | ',' :: input =>
        let (items, left) := scanItems fuel input
        (item :: items, left)
      | _ => ([item, .broken], none)

/-- The members up to the closing brace. -/
def scanMembers : Nat → List Char → List (Option String × Json) × Option (List Char)
  | 0, _ => ([(none, .broken)], none)
  | fuel + 1, input =>
    match skipBlank input with
    | '"' :: input =>
      match scanString input with
      | none => ([(none, .broken)], none)
      | some (key, input) =>
        match skipBlank input with
        | ':' :: input =>
          match scanValue fuel input with
          | (value, none) => ([(key, value)], none)
          | (value, some input) =>
            match skipBlank input with
            | '}' :: left => ([(key, value)], some left)
            | ',' :: input =>
              let (members, left) := scanMembers fuel input
              ((key, value) :: members, left)
            | _ => ([(key, value), (none, .broken)], none)
        | _ => ([(key, .broken)], none)
    | _ => ([(none, .broken)], none)
end

/-- The tree of a text, and whether the text holds nothing else. -/
def scan (input : String) : Json × Bool :=
  let chars := input.toList
  match scanValue (2 * chars.length + 2) chars with
  | (tree, none) => (tree, false)
  | (tree, some rest) => (tree, (skipBlank rest).isEmpty)

/-- The deepest nesting that a reader follows. -/
def depthLimit : Nat := 127

/-- The tree of a text that is JSON from end to end, its strings texts and its numbers in range. -/
def parse? (input : String) : Option Json :=
  match scan input with
  | (tree, true) => if tree.isStrict && tree.depth ≤ depthLimit then some tree else none
  | (_, false) => none

end LedgerExec.Json
