import LedgerExec.Genesis
import LedgerExec.Text
set_option autoImplicit false

/-!
# What can go wrong in a command

The reasons for which a command fails, and the readers of the hexadecimal
arguments that users write.
-/

namespace LedgerExec

/-- Why a command fails. -/
inductive CommandError where
  /-- a file can not be read or written -/
  | io (reason : String)
  /-- a file does not hold what it should -/
  | config (reason : String)
  | genesis (fault : GenesisFault)
  | key (reason : String)
  | argument (reason : String)
  deriving DecidableEq, Repr, Inhabited

/-- The wording of a failure. -/
def CommandError.message : CommandError → String
  | .io reason => s!"IO error: {reason}"
  | .config reason => s!"Configuration error: {reason}"
  | .genesis fault => s!"Genesis error: {fault.message}"
  | .key reason => s!"Key error: {reason}"
  | .argument reason => s!"Invalid argument: {reason}"

namespace Argument

/-- Reads bytes: blanks around them and one `0x` mark are dropped. -/
def bytes (field value : String) : Except CommandError Bytes :=
  (Hex.decode (Hex.unmarkedOnce (Bytes.ofText (Text.trim value)))).mapError fun fault =>
    .argument s!"Invalid hex in {field}: {fault.message}"

/-- Reads an address. -/
def address (field value : String) : Except CommandError Address :=
  (Address.ofHex value).mapError fun fault =>
    .argument s!"Invalid address in {field}: {fault.message}"

end Argument

end LedgerExec
