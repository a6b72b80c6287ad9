import LedgerExec.CommandError
set_option autoImplicit false

/-!
# Secret keys as text

A secret key is written either as JSON, with its public key and address, or as
three lines.  It is read from the JSON form or from bare hexadecimal digits: a
text that is JSON of any kind is taken to be a key file.
-/

namespace LedgerExec

/-- How a key is written. -/
inductive KeyFormat where
  | json
  | hex
  deriving DecidableEq, Repr, Inhabited

namespace KeyFormat

/-- The format of a name. -/
def ofName (name : String) : Except CommandError KeyFormat :=
  match name with
  | "json" => .ok .json
  | "hex" => .ok .hex
  | _ => .error (.argument s!"Unknown format: {name}")

end KeyFormat

namespace SecretKey

/-- The member of a key file that holds the secret key. -/
def memberName : String := "secretKey"

/-- A key as text. -/
def render (key : SecretKey) (format : KeyFormat) : String :=
  let secret := Hex.encodeMarked key.toBytes
  let public_ := Hex.encodeMarked key.publicKey.toBytes
  let address := key.publicKey.address.display
  match format with
  | .json =>
    (Json.record
      [("address", Json.string address), ("publicKey", Json.string public_),
       ("scheme", Json.string "ed25519"), (memberName, Json.string secret)]).pretty
  | .hex => s!"Secret Key: {secret}\nPublic Key: {public_}\nAddress:    {address}"

/-- The hexadecimal text in a key file: its last member of the right name. -/
def textInFile? : Json → Option String
  | .object members =>
    match members.reverse.find? (·.1 = some memberName) with
    | some (_, .text value) => value
    | _ => none
  | _ => none

/-- The hexadecimal text in what a user gives. -/
def hexText (content : String) : Except CommandError String :=
  match Json.parse? content with
  | none => .ok content
  | some file =>
    match textInFile? file with
    | some text => .ok text
    | none => .error (.key s!"Key file missing '{memberName}' field")

/-- Reads a key. -/
def parse (content : String) : Except CommandError SecretKey := do
  let text ← hexText (Text.trim content)
  let bytes ← (Argument.bytes "secret key" text).mapError fun error => .key error.message
  match Octets.ofBytes? .secretKey bytes with
  | some key => return key
  | none => .error (.key s!"Invalid key length: {bytes.length} bytes (expected 32)")

end SecretKey

end LedgerExec
