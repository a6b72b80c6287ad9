import LedgerExec.CommandLine.Arguments
import LedgerExec.Scenario
set_option autoImplicit false

/-!
# Running a command

A command reads and writes files and may need a fresh key.  All that is left to a
`System`, so a command runs in any monad that has one: on the computer, or on a
`Directory` kept in memory.
-/

namespace LedgerExec.CommandLine

/-- What a command needs from its surroundings. -/
structure System (m : Type → Type) where
  /-- the text of a file, or why it can not be read -/
  readFile : String → m (Except String String)
  /-- writes a file, or says why it can not be written -/
  writeFile : String → String → m (Except String Unit)
  /-- whether a name is that of a file -/
  isFile : String → m Bool
  /-- a secret key that nobody knows -/
  freshKey : m SecretKey

/-- What a command shows: its exit code, the text it prints, and why it fails. -/
structure Outcome where
  exit : Nat := 0
  output : String := ""
  error : Option CommandError := none
  deriving DecidableEq, Repr, Inhabited

/-- A step of a command. -/
abbrev Work (m : Type → Type) (α : Type) : Type := ExceptT CommandError m α

variable {m : Type → Type} [Monad m]

/-- The text of a file that the command can not do without. -/
def readText (sys : System m) (path : String) (failure : String → CommandError) :
    Work m String := do
  match ← sys.readFile path with
  | .ok text => return text
  | .error reason => throw (failure reason)

/-- The scenario in a file. -/
def loadScenario (sys : System m) (path : String) : Work m Scenario := do
  let text ← readText sys path fun reason => .io s!"Failed to read {path}: {reason}"
  liftExcept (Scenario.parse text)
where
  liftExcept {α : Type} : Except CommandError α → Work m α
    | .ok x => pure x
    | .error e => throw e

/-- The chain configuration in a file. -/
def loadChain (sys : System m) (path : String) : Work m ChainConfig := do
  let text ← readText sys path fun reason => .config s!"Erreur d'E/S: {reason}"
  match Json.read text with
  | .ok chain => return chain
  | .error fault => throw (.config s!"JSON invalide: {fault.text}")

/-- Shows a text, or writes it to a file and shows nothing. -/
def deliver (sys : System m) (target : Option String) (text : String) : Work m String := do
  match target with
  | none => return text ++ "\n"
  | some path =>
    match ← sys.writeFile path text with
    | .ok () => return ""
    | .error reason => throw (.io s!"Failed to write {path}: {reason}")

/-- The call that the arguments describe. -/
def request (sender : String) (receiver : Option String) (value gasPrice : Balance)
    (gasLimit : Gas) (data : String) : Except CommandError CallRequest := do
  let sender ← Argument.address "--from" sender
  let receiver ← receiver.mapM (Argument.address "--to")
  let data ← Argument.bytes "--data" data
  return { sender, receiver, value, gasPrice, gasLimit, data }

/-- The key that a text or the file of that name holds, as text. -/
def inspect (sys : System m) (key : String) : Work m String := do
  let content ←
    if ← sys.isFile key then
      readText sys key fun reason => .key s!"Failed to read key file: {reason}"
    else pure key
  match SecretKey.parse content with
  | .ok secret => return secret.render .hex
  | .error e => throw e

/-- A new key as text. -/
def generate (sys : System m) (format : String) : Work m String := do
  let key ← sys.freshKey
  match KeyFormat.ofName format with
  | .ok format => return key.render format
  | .error e => throw e

/-- Does what a command asks for; the text is what it prints. -/
def perform (sys : System m) : Command → Work m String
  | .run path chain traces output => do
    let scenario ← loadScenario sys path
    let scenario ←
      match chain with
      | none => pure scenario
      | some path => do pure { scenario with chain := ← loadChain sys path }
    match scenario.run traces with
    | .ok report => deliver sys output (Json.writePretty report)
    | .error e => throw e
  | .call path sender receiver value gasPrice gasLimit data => do
    let scenario ← loadScenario sys path
    match (request sender receiver value gasPrice gasLimit data).bind scenario.call with
    | .ok report => deliver sys none (Json.writePretty report)
    | .error e => throw e
  | .generateKey output format => do deliver sys output (← generate sys format)
  | .inspectKey key => do deliver sys none (← inspect sys key)

/-- The name and version of the program. -/
def versionText : String := "kratos-exec 0.1.0\n"

/-- How the program is used. -/
def helpText : String :=
  "Usage: kratos-exec [OPTIONS] <COMMAND>\n\n" ++
    "Commands:\n" ++
    "  run   Execute the blocks of a scenario\n" ++
    "  call  Local call against the scenario genesis state\n" ++
    "  key   Key management\n"

/-- Runs the program on its arguments. -/
def main (sys : System m) (args : List String) : m Outcome := do
  match read args with
  | .error .refused => return { exit := 2 }
  | .error .help => return { output := helpText }
  | .error .version => return { output := versionText }
  | .ok command =>
    match ← (perform sys command).run with
    | .ok output => return { output }
    | .error e => return { exit := 1, error := some e }

/-! ## Files in memory -/

/-- The files of one directory by name. -/
structure Directory where
  files : List (String × String) := []
  deriving DecidableEq, Repr, Inhabited

namespace Directory

/-- Whether a file may have a name: at most 255 bytes, and not the name of a directory. -/
def isFileName (name : String) : Bool :=
  name.utf8ByteSize ≤ 255 && name ≠ "" && name ≠ "." && name ≠ ".."

/-- The name of the file here that a path leads to.  Only steps that stay where they are may come
before the name, and the path has at most 4095 bytes. -/
def fileName? (path : String) : Option String :=
  match (path.toList.splitOn '/').reverse with
  | [] => none
  | last :: steps =>
    let name := String.ofList last
    let stays := steps.all (fun step => step = [] || step = ['.']) && steps.getLast? ≠ some []
    if stays && isFileName name && path.utf8ByteSize ≤ 4095 then some name else none

/-- The text of the file that a path leads to. -/
def find? (d : Directory) (path : String) : Option String :=
  (fileName? path).bind fun name => d.files.lookup name

/-- Writes the file of a name. -/
def put (d : Directory) (name text : String) : Directory :=
  ⟨(name, text) :: d.files.filter (·.1 ≠ name)⟩

/-- Where what is written is lost. -/
def nullDevice : String := "/dev/null"

/-- Why a path that leads to no file here fails. -/
def noSuchFile : String := "No such file or directory (os error 2)"

/-- A directory as the surroundings of a command, with the keys that are fresh. -/
def system (key : SecretKey) : System (StateM Directory) where
  readFile path := do
    match (← get).find? path with
    | some text => return .ok text
    | none => return .error noSuchFile
  writeFile path text := do
    match fileName? path with
    | some name =>
      modify (·.put name text)
      return .ok ()
    | none => return if path = nullDevice then .ok () else .error noSuchFile
  isFile path := do return ((← get).find? path).isSome
  freshKey := return key

end Directory

end LedgerExec.CommandLine
