import LedgerExec.Octets
import LedgerExec.Wire
import LedgerExec.Json.Codec
set_option autoImplicit false

/-!
# Execution traces

A transaction that ran a program has a program trace, which may hold a step for
every instruction.  Any other has a summary of the value it moved, with the calls
that a built-in contract made.

A trace as JSON carries its kind among its members.  It is read in two passes:
the whole of it has to be JSON before any member is looked at, and amounts of
money can not be read in the second pass.  So a summary, which always names an
amount, can be written but not read back.
-/

namespace LedgerExec

/-- One step of an interpreter. -/
@[ext]
structure TraceStep where
  pc : Unsigned 64
  op : String
  gas : Gas
  gasCost : Gas
  depth : Unsigned 32
  deriving DecidableEq, Repr, Inhabited

namespace TraceStep

instance : Wire TraceStep where
  encode s :=
    Wire.encode s.pc ++ Wire.encode s.op ++ Wire.encode s.gas ++ Wire.encode s.gasCost ++
      Wire.encode s.depth
  decode := do
    let pc ← Wire.decode
    let op ← Wire.decode
    let gas ← Wire.decode
    let gasCost ← Wire.decode
    let depth ← Wire.decode
    return { pc, op, gas, gasCost, depth }

/-- The fields of a step as JSON. -/
def fields : Json.Record TraceStep :=
  TraceStep.mk <$> .field "pc" <*> .field "op" <*> .field "gas" <*> .field "gas_cost"
    <*> .field "depth"

instance : Json.Codec TraceStep where
  toJson s := Json.record
    [("pc", Json.toJson s.pc), ("op", Json.toJson s.op), ("gas", Json.toJson s.gas),
     ("gas_cost", Json.toJson s.gasCost), ("depth", Json.toJson s.depth)]
  ofJson := fields.ofJson

end TraceStep

/-! ## Program traces -/

/-- The trace of a program: its steps and how it ended. -/
@[ext]
structure ProgramTrace where
  contract : Address
  steps : List TraceStep := []
  result : Bytes := []
  error : Option String := none
  reverted : Bool := false
  /-- whether steps are kept -/
  enabled : Bool := false
  /-- how many steps are kept at most -/
  maxSteps : Count := 0
  deriving DecidableEq, Repr, Inhabited

namespace ProgramTrace

/-- Keeps a step, if steps are kept and there is room. -/
def addStep (t : ProgramTrace) (step : TraceStep) : ProgramTrace :=
  if t.enabled && t.steps.length < t.maxSteps.toNat then { t with steps := t.steps ++ [step] }
  else t

/-- The trace with its end. -/
def close (t : ProgramTrace) (result : Bytes) (error : Option String) (reverted : Bool) :
    ProgramTrace :=
  { t with result, error, reverted }

/-- Reads bytes that are laid out as hexadecimal text. -/
def decodeHexText : Wire.Step Bytes := do
  match Hex.decodeMarked (← Wire.decode) with
  | .ok bytes => return bytes
  | .error _ => Wire.fail

instance : Wire ProgramTrace where
  encode t :=
    Wire.encode t.contract ++ Wire.encode t.steps ++ Wire.encode (Hex.encodeMarked t.result) ++
      Wire.encode t.error ++ Wire.encode t.reverted
  decode := do
    let contract ← Wire.decode
    let steps ← Wire.decode
    let result ← decodeHexText
    let error ← Wire.decode
    let reverted ← Wire.decode
    return { contract, steps, result, error, reverted }

/-- The members of a trace. -/
def members (t : ProgramTrace) : List (String × Json) :=
  [("contract_address", Json.toJson t.contract), ("steps", Json.toJson t.steps),
   ("result", Json.string (Hex.encodeMarked t.result)), ("error", Json.toJson t.error),
   ("revert", Json.toJson t.reverted)]

/-- The fields of a trace as JSON. -/
def fields : Json.Record ProgramTrace :=
  (fun contract steps result error reverted => { contract, steps, result, error, reverted })
    <$> .field "contract_address" <*> .field "steps"
    <*> .fieldWith "result" Json.readHex none none <*> .fieldOrNull "error" <*> .field "revert"

instance : Json.Codec ProgramTrace where
  toJson t := Json.record t.members
  ofJson := fields.ofJson

end ProgramTrace

/-! ## Value movements and the calls of built-in contracts -/

/-- Value that one account gives to another. -/
@[ext]
structure Movement where
  sender : Address
  receiver : Option Address
  gas : Gas
  value : Balance
  deriving DecidableEq, Repr, Inhabited

namespace Movement

instance : Wire Movement where
  encode m :=
    Wire.encode m.sender ++ Wire.encode m.receiver ++ Wire.encode m.gas ++ Wire.encode m.value
  decode := do
    let sender ← Wire.decode
    let receiver ← Wire.decode
    let gas ← Wire.decode
    let value ← Wire.decode
    return { sender, receiver, gas, value }

/-- The fields of a movement as JSON, with a reader of amounts. -/
def fieldsWith (amount : Json → Except Json.Fault Balance) : Json.Record Movement :=
  Movement.mk <$> .field "sender" <*> .fieldOrNull "receiver" <*> .field "gas"
    <*> .fieldWith "value" amount none none

instance : Json.Codec Movement where
  toJson m := Json.record
    [("sender", Json.toJson m.sender), ("receiver", Json.toJson m.receiver),
     ("gas", Json.toJson m.gas), ("value", Json.toJson m.value)]
  ofJson := (fieldsWith Json.ofJson).ofJson

end Movement

/-- A call that a built-in contract made, with the calls made in it. -/
structure Subtrace where
  callType : String
  movement : Movement
  output : Bytes
  subtraces : List Subtrace
  deriving Repr, Inhabited

namespace Subtrace

mutual
/-- The tree of a call. -/
def toTree : Subtrace → Json
  | ⟨callType, movement, output, subtraces⟩ => Json.record
    [("call_type", Json.string callType), ("invoke", Json.toJson movement),
     ("output", Json.string (Hex.encodeMarked output)), ("subtraces", .array (toTrees subtraces))]

/-- The trees of calls. -/
def toTrees : List Subtrace → List Json
  | [] => []
  | s :: rest => toTree s :: toTrees rest
end

/-- Reads a call within `room` levels of nesting, with a reader of amounts. -/
def ofTree (amount : Json → Except Json.Fault Balance) : Nat → Json → Except Json.Fault Subtrace
  | 0, _ => .error .malformed
  | room + 1, tree =>
    let movement (tree : Json) : Except Json.Fault Movement :=
      if room = 0 then .error .malformed else (Movement.fieldsWith amount).ofJson tree
    let subtraces (tree : Json) : Except Json.Fault (List Subtrace) :=
      match room, tree with
      | inner + 1, .array items => items.mapM (ofTree amount inner)
      | _, _ => .error .malformed
    let fields : Json.Record Subtrace :=
      Subtrace.mk <$> .field "call_type" <*> .fieldWith "invoke" movement none none
        <*> .fieldWith "output" Json.readHex none none
        <*> .fieldWith "subtraces" subtraces none none
    fields.ofJson tree

instance : Json.Codec Subtrace where
  toJson := toTree
  ofJson := ofTree Json.ofJson Json.depthLimit

mutual
/-- The layout of a call. -/
def encode : Subtrace → Bytes
  | ⟨callType, movement, output, subtraces⟩ =>
    Wire.encode callType ++ Wire.encode movement ++ Wire.encode (Hex.encodeMarked output) ++
      (Wire.encodeLength subtraces.length ++ encodeAll subtraces)

/-- The layouts of calls. -/
def encodeAll : List Subtrace → Bytes
  | [] => []
  | s :: rest => encode s ++ encodeAll rest
end

mutual
/-- Reads a call in at most `fuel` steps. -/
def decode : Nat → Wire.Step Subtrace
  | 0 => Wire.fail
  | fuel + 1 => do
    let callType ← Wire.decode
    let movement ← Wire.decode
    let output ← ProgramTrace.decodeHexText
    let count ← Wire.decodeLength
    let subtraces ← decodeAll fuel count
    return ⟨callType, movement, output, subtraces⟩

/-- Reads a number of calls in at most `fuel` steps. -/
def decodeAll : Nat → Nat → Wire.Step (List Subtrace)
  | _, 0 => return []
  | 0, _ => Wire.fail
  | fuel + 1, count + 1 => do
    let first ← decode fuel
    let rest ← decodeAll fuel count
    return first :: rest
end

instance : Wire Subtrace where
  encode := encode
  decode := fun input => decode (input.length + 1) input

end Subtrace

/-- What a transaction moved without running a program. -/
structure TransferTrace where
  movement : Movement
  subtraces : List Subtrace
  deriving Repr, Inhabited

namespace TransferTrace

/-- The members of a summary. -/
def members (t : TransferTrace) : List (String × Json) :=
  [("invoke", Json.toJson t.movement), ("subtraces", Json.toJson t.subtraces)]

/-- The fields of a summary as JSON, within `room` levels of nesting and with a reader of
amounts. -/
def fieldsWith (amount : Json → Except Json.Fault Balance) (room : Nat) :
    Json.Record TransferTrace :=
  let subtraces (tree : Json) : Except Json.Fault (List Subtrace) :=
    match tree with
    | .array items => items.mapM (Subtrace.ofTree amount room)
    | _ => .error .malformed
  TransferTrace.mk <$> .fieldWith "invoke" (Movement.fieldsWith amount).ofJson none none
    <*> .fieldWith "subtraces" subtraces none none

instance : Json.Codec TransferTrace where
  toJson t := Json.record t.members
  ofJson := (fieldsWith Json.ofJson (Json.depthLimit - 2)).ofJson

instance : Wire TransferTrace where
  encode t := Wire.encode t.movement ++ Wire.encode t.subtraces
  decode := do
    let movement ← Wire.decode
    let subtraces ← Wire.decode
    return { movement, subtraces }

end TransferTrace

/-! ## Traces -/

/-- The trace of a transaction. -/
inductive Trace where
  | program (trace : ProgramTrace)
  | summarized (trace : TransferTrace)
  deriving Repr, Inhabited

namespace Trace

/-- The member that tells the kind. -/
def tag : String := "kind"

/-- A reader of amounts that finds none. -/
def noAmount : Json → Except Json.Fault Balance := fun _ => .error .malformed

/-- The fields of a trace of the named kind. -/
def fieldsOf? : Json → Option (Json.Record Trace)
  | .text (some "program") => some (program <$> ProgramTrace.fields)
  | .text (some "summarized") =>
    some (summarized <$> TransferTrace.fieldsWith noAmount Json.depthLimit)
  | _ => none

/-- Reads a trace that stands inside `around` arrays and objects. -/
def ofTree (around : Nat) (tree : Json) : Except Json.Fault Trace :=
  if tree.isStrict && tree.depth + around ≤ Json.depthLimit then
    match tree with
    | .object members =>
      match members.filter (·.1 = some tag) with
      | [(_, kind)] =>
        match fieldsOf? kind with
        | some fields => fields.ofEntries (.members members)
        | none => .error .malformed
      | _ => .error .malformed
    | .array (kind :: items) =>
      match fieldsOf? kind with
      | some fields => fields.ofEntries (.items items)
      | none => .error .malformed
    | _ => .error .malformed
  else .error .malformed

instance : Json.Codec Trace where
  toJson
    | .program t => Json.record ((tag, Json.string "program") :: t.members)
    | .summarized t => Json.record ((tag, Json.string "summarized") :: t.members)
  ofJson := ofTree 0

instance : Wire Trace where
  encode
    | .program t => Wire.encode "program" ++ Wire.encode t
    | .summarized t => Wire.encode "summarized" ++ Wire.encode t
  decode := Wire.fail

end Trace

end LedgerExec
