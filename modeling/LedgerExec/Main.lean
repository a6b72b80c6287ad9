import LedgerExec.CommandLine.Run
set_option autoImplicit false

/-!
# The program

Runs a command on the files of the computer.  What it prints goes to standard
output, why it fails to standard error.
-/

namespace LedgerExec

/-- The computer as the surroundings of a command. -/
def computer : CommandLine.System IO where
  readFile path := do
    try return .ok (← IO.FS.readFile path)
    catch e => return .error (toString e)
  writeFile path text := do
    try
      IO.FS.writeFile path text
      return .ok ()
    catch e => return .error (toString e)
  isFile path := do
    try
      discard (IO.FS.readBinFile path)
      return true
    catch _ => return false
  freshKey := do
    let bytes ← IO.getRandomBytes 32
    return Octets.ofLowOrder .secretKey bytes.toList

end LedgerExec

/-- Runs the program on its arguments. -/
def main (args : List String) : IO UInt32 := do
  let outcome ← LedgerExec.CommandLine.main LedgerExec.computer args
  IO.print outcome.output
  match outcome.error with
  | some e => IO.eprintln s!"Error: {e.message}"
  | none => pure ()
  return UInt32.ofNat outcome.exit
