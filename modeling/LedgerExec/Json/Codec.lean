import LedgerExec.Octets
import LedgerExec.Json.Scan
import LedgerExec.Json.Render
set_option autoImplicit false

/-!
# Values as JSON

A type with a JSON form has a writer to trees beside a reader from trees.  The
reader finds the fault that stands first in the text: a record is read by
`Record`, whose parts each say at which entry they fail, and of two faults the
one at the earlier entry is reported.  So a text that breaks off after a faulty
address is reported for the address.

A record is an object, whose unknown members are skipped and whose known ones
may not repeat, or an array of its fields in order.
-/

namespace LedgerExec.Json

/-! ## Faults -/

/-- Why a text is not the JSON form of a value. -/
inductive Fault where
  /-- the text is no JSON or has another shape -/
  | malformed
  /-- a string is not hexadecimal -/
  | hex (fault : Hex.Fault)
  /-- a string spells a wrong number of bytes -/
  | length (kind : OctetKind) (found : Nat)
  deriving DecidableEq, Repr, Inhabited

/-- The wording of a fault, where the fault has one of its own. -/
def Fault.message? : Fault → Option String
  | .malformed => none
  | .hex fault => some fault.message
  | .length .address _ => some "Address must be 20 bytes"
  | .length .digest _ => some "Hash must be 32 bytes"
  | .length .word _ => some "DataWord must be 32 bytes"
  | .length .signature found => some s!"signature is {found} bytes, expected 64"
  | .length _ _ => none

/-- The wording of any fault. -/
def Fault.text (fault : Fault) : String := fault.message?.getD "malformed JSON"

/-- A type with a JSON form. -/
class Codec (α : Type) where
  /-- the tree of a value -/
  toJson : α → Json
  /-- the value of a tree -/
  ofJson : Json → Except Fault α

export Codec (toJson ofJson)

/-- A type whose values name the members of an object. -/
class Key (κ : Type) where
  /-- the name of a value -/
  toKey : κ → String
  /-- the value of a name -/
  ofKey : String → Except Fault κ

variable {α β : Type}

/-- The value that a whole text spells. -/
def read [Codec α] (input : String) : Except Fault α := do
  let (tree, closed) := scan input
  let value ← ofJson tree
  if closed then return value else .error .malformed

/-- The text of a value without blanks. -/
def write [Codec α] (x : α) : String := compact (toJson x)

/-- The text of a value in lines. -/
def writePretty [Codec α] (x : α) : String := pretty (toJson x)

/-! ## Records -/

/-- An outcome whose fault carries the number of the entry where it stands. -/
abbrev Verdict (α : Type) : Type := Except (Nat × Fault) α

/-- Both outcomes, or the fault that stands first. -/
def Verdict.both (first : Verdict (α → β)) (second : Verdict α) : Verdict β :=
  match first, second with
  | .ok f, .ok x => .ok (f x)
  | .error e, .ok _ => .error e
  | .ok _, .error e => .error e
  | .error e, .error e' => if e'.1 < e.1 then .error e' else .error e

/-- The entries of a record. -/
inductive Entries where
  | members (members : List (Option String × Json))
  | items (items : List Json)

/-- A reader of some of the fields of a record: their names in order, and what the entries say of
them when the first of them is the field with the given number. -/
structure Record (α : Type) where
  names : List String
  read : Entries → Nat → Verdict α

namespace Record

instance : Functor Record where
  map f r := ⟨r.names, fun entries place => (r.read entries place).map f⟩

instance : Seq Record where
  seq f x :=
    ⟨f.names ++ (x ()).names, fun entries place =>
      Verdict.both (f.read entries place) ((x ()).read entries (place + f.names.length))⟩

/-- The first member of a name, with its number. -/
def find? (name : String) : List (Option String × Json) → Nat → Option (Nat × Json)
  | [], _ => none
  | (key, value) :: rest, place =>
    if key = some name then some (place, value) else find? name rest (place + 1)

/-- A field with its reader.  `absent` stands for a missing member, `cut` for a missing item. -/
def fieldWith (name : String) (decode : Json → Except Fault α) (absent cut : Option α) :
    Record α :=
  ⟨[name], fun entries place =>
    match entries with
    | .members members =>
      match find? name members 0 with
      | some (entry, value) => (decode value).mapError (entry, ·)
      | none =>
        match absent with
        | some x => .ok x
        | none => .error (members.length, .malformed)
    | .items items =>
      match items[place]? with
      | some value => (decode value).mapError (place, ·)
      | none =>
        match cut with
        | some x => .ok x
        | none => .error (items.length, .malformed)⟩

/-- A field that must be there. -/
def field [Codec α] (name : String) : Record α := fieldWith name ofJson none none

/-- A field with a value to take when it is missing. -/
def fieldOr [Codec α] (name : String) (value : α) : Record α :=
  fieldWith name ofJson (some value) (some value)

/-- A field whose member may be missing, as if it were null. -/
def fieldOrNull [Codec (Option α)] (name : String) : Record (Option α) :=
  fieldWith name ofJson (some none) none

/-- Whether the members have known names at most once and skipped values are grammatical. -/
def checkMembers (names : List String) :
    List String → Nat → List (Option String × Json) → Verdict Unit
  | _, _, [] => .ok ()
  | seen, place, (key, value) :: rest =>
    match key with
    | none => .error (place, .malformed)
    | some key =>
      if key ∈ names then
        if key ∈ seen then .error (place, .malformed)
        else checkMembers names (key :: seen) (place + 1) rest
      else if value.isWhole then checkMembers names seen (place + 1) rest
      else .error (place, .malformed)

/-- Reads a record from entries that hold nothing else. -/
def ofEntries (r : Record α) (entries : Entries) : Except Fault α :=
  let shape : Verdict (α → α) :=
    match entries with
    | .members members => (checkMembers r.names [] 0 members).map fun _ => id
    | .items items =>
      if items.length ≤ r.names.length then .ok id else .error (r.names.length, .malformed)
  (shape.both (r.read entries 0)).mapError (·.2)

/-- Reads a record. -/
def ofJson (r : Record α) : Json → Except Fault α
  | .object members => r.ofEntries (.members members)
  | .array items => r.ofEntries (.items items)
  | _ => .error .malformed

end Record

/-- A member that is written only if there is a value. -/
def member? [Codec α] (name : String) (value : Option α) : List (String × Json) :=
  match value with
  | some x => [(name, toJson x)]
  | none => []

/-! ## Cases -/

/-- Reads a case of an enumeration: a name, or an object of one member whose name is the case. -/
def readCase (cases : String → Option Json → Except Fault α) : Json → Except Fault α
  | .text (some name) => cases name none
  | .object ((some name, payload) :: rest) => do
    let value ← cases name (some payload)
    if rest.isEmpty then return value else .error .malformed
  | _ => .error .malformed

/-- The value of a case that carries nothing. -/
def bare (value : α) : Option Json → Except Fault α
  | none | some .null => .ok value
  | some _ => .error .malformed

/-! ## Basic forms -/

/-- Reads a string. -/
def readText : Json → Except Fault String
  | .text (some s) => .ok s
  | _ => .error .malformed

instance {width : Nat} : Codec (Unsigned width) where
  toJson x := nat x.toNat
  ofJson
    | .number lexeme =>
      match (natural? lexeme).bind (Unsigned.ofNat? width) with
      | some x => .ok x
      | none => .error .malformed
    | _ => .error .malformed

instance : Codec UInt8 where
  toJson x := nat x.toNat
  ofJson
    | .number lexeme =>
      match natural? lexeme with
      | some n => if n < 256 then .ok (UInt8.ofNat n) else .error .malformed
      | none => .error .malformed
    | _ => .error .malformed

instance : Codec Bool where
  toJson := .bool
  ofJson
    | .bool b => .ok b
    | _ => .error .malformed

instance : Codec String where
  toJson := string
  ofJson := readText

instance [Codec α] : Codec (Option α) where
  toJson
    | some x => toJson x
    | none => .null
  ofJson
    | .null => .ok none
    | tree => (Codec.ofJson tree).map some

instance [Codec α] : Codec (List α) where
  toJson xs := .array (xs.map toJson)
  ofJson
    | .array items => items.mapM Codec.ofJson
    | _ => .error .malformed

instance {κ : Type} [Ord κ] [Std.TransOrd κ] [Key κ] [Codec α] :
    Codec (Std.ExtTreeMap κ α) where
  toJson m := record (m.toList.map fun (key, value) => (Key.toKey key, toJson value))
  ofJson
    | .object members =>
      members.foldlM (fun m (name, tree) =>
        match name with
        | none => .error .malformed
        | some name => do
          let key ← Key.ofKey name
          let value ← Codec.ofJson tree
          return m.insert key value) ∅
    | _ => .error .malformed

instance {κ : Type} [Ord κ] [Std.TransOrd κ] [Codec κ] : Codec (Std.ExtTreeSet κ) where
  toJson s := toJson s.toList
  ofJson tree := do
    let items : List κ ← Codec.ofJson tree
    return Std.ExtTreeSet.ofList items compare

/-! ## Bytes in hexadecimal -/

/-- Reads the bytes of a hexadecimal string after any number of `0x` marks. -/
def readHex (tree : Json) : Except Fault Bytes := do
  let s ← readText tree
  (Hex.decodeMarked s).mapError .hex

/-- Reads a fixed-length byte string from hexadecimal text. -/
def octetsOfText (kind : OctetKind) (s : String) : Except Fault (Octets kind) := do
  let bytes ← (Hex.decodeMarked s).mapError .hex
  match Octets.ofBytes? kind bytes with
  | some x => return x
  | none => .error (.length kind bytes.length)

/-- A fixed-length byte string in hexadecimal text: signatures bare, the others after `0x`. -/
def octetsToText {kind : OctetKind} (x : Octets kind) : String :=
  match kind with
  | .signature => x.toHex
  | _ => Hex.encodeMarked x.toBytes

/-- Whether byte strings of a kind are written as an array of their bytes. -/
def isArray : OctetKind → Bool
  | .publicKey | .secretKey => true
  | _ => false

instance {kind : OctetKind} : Codec (Octets kind) where
  toJson x := if isArray kind then toJson x.toBytes else string (octetsToText x)
  ofJson tree :=
    if isArray kind then
      match tree with
      | .array items => do
        let bytes : List UInt8 ← (items.take kind.size).mapM Codec.ofJson
        match if items.length = kind.size then Octets.ofBytes? kind bytes else none with
        | some x => return x
        | none => .error .malformed
      | _ => .error .malformed
    else do octetsOfText kind (← readText tree)

instance {kind : OctetKind} : Key (Octets kind) where
  toKey := octetsToText
  ofKey := octetsOfText kind

end LedgerExec.Json
