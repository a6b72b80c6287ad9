import LedgerExec.Octets
set_option autoImplicit false

/-!
# Command-line arguments

Arguments are read level by level: the options of the program, a command, the
options of the command.  An option is given by a long name after two dashes or a
letter after one; letters without a value may be run together.  A value stands
after an equals sign, right after the letter, or in the next argument, which must
not look like an option.  An option may be given once on a level, and two dashes
alone end the options.  After the command for help only the names of a command and
of commands below it may stand.
-/

namespace LedgerExec.CommandLine

/-- An option that a level knows. -/
structure OptionSpec where
  name : String
  letter : Option Char := none
  /-- whether a value follows -/
  takesValue : Bool := true
  /-- which values are accepted -/
  accepts : String → Bool := fun _ => true

/-- What reading a level comes to. -/
inductive Stop where
  /-- the arguments are refused -/
  | refused
  | help
  | version
  deriving DecidableEq, Repr, Inhabited

/-- The options given on a level and their values, and what else stood there. -/
structure Given where
  options : List (String × String) := []
  positional : List String := []
  deriving DecidableEq, Repr, Inhabited

/-- The value of an option. -/
def Given.value? (g : Given) (name : String) : Option String :=
  (g.options.find? (·.1 = name)).map (·.2)

/-- Whether an option is given. -/
def Given.has (g : Given) (name : String) : Bool := (g.value? name).isSome

/-- Gives an option a value, unless it has one already or does not accept it. -/
def Given.add (g : Given) (spec : OptionSpec) (value : String) : Except Stop Given :=
  if spec.name = "help" then .error .help
  else if spec.name = "version" then .error .version
  else if g.has spec.name || !spec.accepts value then .error .refused
  else .ok { g with options := g.options ++ [(spec.name, value)] }

/-- Whether an argument looks like an option: it starts with a dash and is more than one. -/
def looksLikeOption (arg : String) : Bool :=
  match arg.toList with
  | '-' :: _ :: _ => true
  | _ => false

/-- What an argument asks for: an option that still needs its value may be left open. -/
abbrev Reading : Type := Except Stop (Given × Option OptionSpec)

/-- Reads letters run together after one dash. -/
def readLetters (specs : List OptionSpec) : List Char → Given → Reading
  | [], g => .ok (g, none)
  | letter :: rest, g =>
    match specs.find? (·.letter = some letter) with
    | none => .error .refused
    | some spec =>
      if spec.takesValue then
        match rest with
        | [] => .ok (g, some spec)
        | '=' :: value => (g.add spec (String.ofList value)).map (·, none)
        | value => (g.add spec (String.ofList value)).map (·, none)
      else
        match g.add spec "" with
        | .ok g => readLetters specs rest g
        | .error stop => .error stop

/-- Reads an option by its long name. -/
def readLong (specs : List OptionSpec) (body : List Char) (g : Given) : Reading :=
  let name := String.ofList (body.takeWhile (· ≠ '='))
  let attached := body.dropWhile (· ≠ '=')
  match specs.find? (·.name = name) with
  | none => .error .refused
  | some spec =>
    if spec.takesValue then
      match attached with
      | [] => .ok (g, some spec)
      | _ :: value => (g.add spec (String.ofList value)).map (·, none)
    else if attached.isEmpty then (g.add spec "").map (·, none)
    else .error .refused

/-- Reads a level.  Where the level has commands, the first argument that is no option ends it
and is given back with those after it.  `pending` is the option whose value comes next. -/
def readLevel (specs : List OptionSpec) (hasCommands : Bool) :
    List String → Option OptionSpec → Given → Except Stop (Given × List String)
  | [], none, g => .ok (g, [])
  | [], some _, _ => .error .refused
  | arg :: rest, some spec, g =>
    if looksLikeOption arg then .error .refused
    else
      match g.add spec arg with
      | .ok g => readLevel specs hasCommands rest none g
      | .error stop => .error stop
  | arg :: rest, none, g =>
    match arg.toList with
    | ['-', '-'] =>
      if hasCommands then .error .refused
      else .ok ({ g with positional := g.positional ++ rest }, [])
    | '-' :: '-' :: body =>
      match readLong specs body g with
      | .ok (g, pending) => readLevel specs hasCommands rest pending g
      | .error stop => .error stop
    | '-' :: letter :: letters =>
      match readLetters specs (letter :: letters) g with
      | .ok (g, pending) => readLevel specs hasCommands rest pending g
      | .error stop => .error stop
    | _ =>
      if hasCommands then .ok (g, arg :: rest)
      else readLevel specs hasCommands rest none { g with positional := g.positional ++ [arg] }

/-! ## Numbers -/

/-- The number that digits spell, a plus sign before them being allowed. -/
def numberOf? (text : String) : Option Nat :=
  let digits := match text.toList with
    | '+' :: rest => rest
    | digits => digits
  if !digits.isEmpty && digits.all (fun c => '0' ≤ c && c ≤ '9') then
    some (digits.foldl (fun value c => 10 * value + (c.toNat - 48)) 0)
  else none

/-- A number of a width. -/
def unsigned? (width : Nat) (text : String) : Option (Unsigned width) :=
  (numberOf? text).bind (Unsigned.ofNat? width)

/-! ## The commands -/

/-- What the program is asked to do. -/
inductive Command where
  /-- execute the blocks of a scenario -/
  | run (scenario : String) (chain : Option String) (traces : Bool) (output : Option String)
  /-- try a call on a scenario -/
  | call (scenario sender : String) (receiver : Option String) (value gasPrice : Balance)
    (gasLimit : Gas) (data : String)
  /-- make a key -/
  | generateKey (output : Option String) (format : String)
  /-- show a key -/
  | inspectKey (key : String)
  deriving DecidableEq, Repr, Inhabited

/-- Options known on every level. -/
def globalOptions : List OptionSpec :=
  [{ name := "verbose", letter := some 'v', takesValue := false },
   { name := "log-level" },
   { name := "help", letter := some 'h', takesValue := false }]

/-- The options of the program itself. -/
def programOptions : List OptionSpec :=
  { name := "version", letter := some 'V', takesValue := false } :: globalOptions

/-- An option whose value is the name of a file. -/
def fileOption (name : String) (letter : Option Char) : OptionSpec :=
  { name, letter, accepts := fun value => !value.isEmpty }

/-- The options of the command that executes a scenario. -/
def runOptions : List OptionSpec :=
  [fileOption "scenario" (some 's'), fileOption "chain" none,
   { name := "traces", takesValue := false }, fileOption "output" (some 'o')] ++ globalOptions

/-- The options of the command that tries a call. -/
def callOptions : List OptionSpec :=
  [fileOption "scenario" (some 's'), { name := "from" }, { name := "to" },
   { name := "value", accepts := fun value => (unsigned? 128 value).isSome },
   { name := "gas-price", accepts := fun value => (unsigned? 128 value).isSome },
   { name := "gas-limit", accepts := fun value => (unsigned? 64 value).isSome },
   { name := "data" }] ++ globalOptions

/-- The options of the command that makes a key. -/
def generateOptions : List OptionSpec :=
  [fileOption "output" (some 'o'), { name := "format" }] ++ globalOptions

/-- The number given for an option, or another one. -/
def Given.number {width : Nat} (g : Given) (name : String) (default : Unsigned width) :
    Unsigned width :=
  ((g.value? name).bind (unsigned? width)).getD default

/-- The value that an option must have. -/
def Given.required (g : Given) (name : String) : Except Stop String :=
  match g.value? name with
  | some value => .ok value
  | none => .error .refused

/-- Reads a level that has options only. -/
def readOptions (specs : List OptionSpec) (args : List String) : Except Stop Given := do
  let (g, _) ← readLevel specs false args none {}
  if g.positional.isEmpty then return g else .error .refused

/-- Reads what follows the command that executes a scenario. -/
def readRun (args : List String) : Except Stop Command := do
  let g ← readOptions runOptions args
  return .run (← g.required "scenario") (g.value? "chain") (g.has "traces") (g.value? "output")

/-- Reads what follows the command that tries a call. -/
def readCall (args : List String) : Except Stop Command := do
  let g ← readOptions callOptions args
  return .call (← g.required "scenario") (← g.required "from") (g.value? "to")
    (g.number "value" 0) (g.number "gas-price" 0) (g.number "gas-limit" 6800000)
    ((g.value? "data").getD "")

/-- Reads what follows the command that makes a key. -/
def readGenerate (args : List String) : Except Stop Command := do
  let g ← readOptions generateOptions args
  return .generateKey (g.value? "output") ((g.value? "format").getD "json")

/-- Reads what follows the command that shows a key. -/
def readInspect (args : List String) : Except Stop Command := do
  let (g, _) ← readLevel globalOptions false args none {}
  match g.positional with
  | [key] => return .inspectKey key
  | _ => .error .refused

/-- The names that may follow a command, which is given by the names that lead to it. -/
def commandsBelow : List String → List String
  | [] => ["run", "call", "key", "help"]
  | ["key"] => ["generate", "inspect", "help"]
  | _ => []

/-- Reads what follows the command for help: the names that lead on from `command` to the
command that help is wanted on. -/
def readHelp (command : List String) : List String → Stop
  | [] => .help
  | name :: rest =>
    if name ∈ commandsBelow command then readHelp (command ++ [name]) rest else .refused

/-- Reads what follows the commands about keys. -/
def readKey (args : List String) : Except Stop Command := do
  match ← readLevel globalOptions true args none {} with
  | (_, "generate" :: rest) => readGenerate rest
  | (_, "inspect" :: rest) => readInspect rest
  | (_, "help" :: rest) => .error (readHelp ["key"] rest)
  | _ => .error .refused

/-- Reads the arguments of the program. -/
def read (args : List String) : Except Stop Command := do
  match ← readLevel programOptions true args none {} with
  | (_, "run" :: rest) => readRun rest
  | (_, "call" :: rest) => readCall rest
  | (_, "key" :: rest) => readKey rest
  | (_, "help" :: rest) => .error (readHelp [] rest)
  | _ => .error .refused

end LedgerExec.CommandLine
