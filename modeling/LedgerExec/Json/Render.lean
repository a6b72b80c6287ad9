import LedgerExec.Json.Tree
set_option autoImplicit false

/-!
# Writing JSON text

Two layouts of one tree: `compact` without any blank, and `pretty` with a line
for every item and member, indented by two blanks a level, where an empty array
or object stays on its line.  In strings the quote, the backslash and the
control characters below 32 are escaped, and nothing else.
-/

namespace LedgerExec.Json

/-- A character inside a string. -/
def renderChar (c : Char) : String :=
  match c with
  | '"' => "\\\""
  | '\\' => "\\\\"
  | '\x08' => "\\b"
  | '\t' => "\\t"
  | '\n' => "\\n"
  | '\x0c' => "\\f"
  | '\r' => "\\r"
  | c =>
    if c.toNat < 32 then
      "\\u00" ++ String.ofList [Hex.digit (c.toNat / 16), Hex.digit (c.toNat % 16)]
    else String.singleton c

/-- A string in its quotes. -/
def renderString (s : String) : String :=
  "\"" ++ s.foldl (fun acc c => acc ++ renderChar c) "" ++ "\""

/-- A value that is neither array nor object. -/
def renderLeaf : Json → String
  | .null => "null"
  | .bool true => "true"
  | .bool false => "false"
  | .number lexeme => String.ofList lexeme
  | .text value => renderString (value.getD "")
  | _ => ""

mutual
/-- A tree without blanks. -/
def compact : Json → String
  | .array items => "[" ++ compactItems items ++ "]"
  | .object members => "\x7b" ++ compactMembers members ++ "\x7d"
  | leaf => renderLeaf leaf

/-- Items with commas between them. -/
def compactItems : List Json → String
  | [] => ""
  | [item] => compact item
  | item :: rest => compact item ++ "," ++ compactItems rest

/-- Members with commas between them. -/
def compactMembers : List (Option String × Json) → String
  | [] => ""
  | [(key, value)] => renderString (key.getD "") ++ ":" ++ compact value
  | (key, value) :: rest =>
    renderString (key.getD "") ++ ":" ++ compact value ++ "," ++ compactMembers rest
end

/-- A new line at a level of indentation. -/
def newLine (level : Nat) : String := "\n" ++ String.ofList (List.replicate (2 * level) ' ')

mutual
/-- A tree with a line for each item and member, inside `level` others. -/
def prettyAt (level : Nat) : Json → String
  | .array [] => "[]"
  | .array items => "[" ++ prettyItems (level + 1) items ++ newLine level ++ "]"
  | .object [] => "\x7b\x7d"
  | .object members =>
    "\x7b" ++ prettyMembers (level + 1) members ++ newLine level ++ "\x7d"
  | leaf => renderLeaf leaf

/-- Items on lines of their own. -/
def prettyItems (level : Nat) : List Json → String
  | [] => ""
  | [item] => newLine level ++ prettyAt level item
  | item :: rest => newLine level ++ prettyAt level item ++ "," ++ prettyItems level rest

/-- Members on lines of their own. -/
def prettyMembers (level : Nat) : List (Option String × Json) → String
  | [] => ""
  | [(key, value)] =>
    newLine level ++ renderString (key.getD "") ++ ": " ++ prettyAt level value
  | (key, value) :: rest =>
    newLine level ++ renderString (key.getD "") ++ ": " ++ prettyAt level value ++ "," ++
      prettyMembers level rest
end

/-- A tree with a line for each item and member. -/
def pretty (tree : Json) : String := prettyAt 0 tree

end LedgerExec.Json
