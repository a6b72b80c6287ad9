import LedgerExec.Execution.Run
set_option autoImplicit false

/-!
# Local calls

A local call runs a transaction on a view of its own that is thrown away, with a
sender that is only named.  It answers what the transaction would return and how
much gas it would use.  A program that reverts may return a reason: a selector,
then the offset, the length and the bytes of a text in the layout of contract
calls.
-/

namespace LedgerExec

/-- A call to be tried. -/
@[ext]
structure CallRequest where
  sender : Address
  /-- the receiver; `none` tries the creation of a contract -/
  receiver : Option Address := none
  value : Balance := 0
  gasPrice : Balance := 0
  gasLimit : Gas := 0
  data : Bytes := []
  deriving DecidableEq, Repr, Inhabited

/-! ## Reasons for reverting -/

namespace RevertReason

/-- What a reason starts with. -/
def selector : Bytes := [0x08, 0xc3, 0x79, 0xa0]

/-- The part of a byte string from one place up to another, if it lies inside. -/
def slice? (data : Bytes) (start stop : Count) : Option Bytes :=
  if start ≤ stop ∧ stop.toNat ≤ data.length then
    some ((data.take stop.toNat).drop start.toNat)
  else none

/-- The 32-byte number at a place, if it is one that a place can have. -/
def word? (data : Bytes) (place : Count) : Option Count := do
  let stop ← Unsigned.add? place 32
  let word ← slice? data place stop
  Unsigned.ofNat? 64 (Bytes.ofBigEndian word)

/-- The reason in what a program has returned.  Places are of the machine's word size, and a sum
beyond it is the place of nothing. -/
def decode? (data : Bytes) : Option String := do
  if data.take 4 ≠ selector then none
  else
    let body := data.drop 4
    let offset ← word? body 0
    let length ← word? body offset
    let start ← Unsigned.add? offset 32
    let stop ← Unsigned.add? start length
    Bytes.toText? (← slice? body start stop)

end RevertReason

/-- What a local call comes to. -/
structure CallOutcome where
  result : RunResult
  error : Option ExecutionError
  notes : List Note

namespace CallOutcome

/-- The wording of the error, empty without one. -/
def errorText (o : CallOutcome) : String := (o.error.map (·.message)).getD ""

/-- The reason for reverting, if the call reverted and gave one. -/
def revertReason? (o : CallOutcome) : Option String :=
  if o.result.reverted then RevertReason.decode? o.result.output else none

end CallOutcome

namespace CallRequest

/-- The payload that the call is run as, with the nonce that the sender has. -/
def payload (r : CallRequest) (chainId : ChainId) (nonce : Nonce) : Payload :=
  { nonce
    gasPrice := r.gasPrice
    gasLimit := r.gasLimit
    rentGasLimit := 0
    receiver := (r.receiver.map (·.toBytes)).getD []
    value := r.value
    data := r.data
    chainId }

/-- The job of the call. -/
def job (r : CallRequest) (context : Context) (state : View) : Job :=
  { context
    transaction :=
      (r.payload context.chain.chainId (state.nonce r.sender)).asLocalCall r.sender
    isLocal := true }

/-- Runs the call on a view of its own. -/
def run (r : CallRequest) (context : Context) (state : View) : CallOutcome :=
  let e := (r.job context state).execute state.push (SenderCache.ofCapacity 1)
  { result := e.result
    error := e.error
    notes := (e.program.map (·.notes)).getD [] }

/-- The gas that the call uses, the intrinsic cost included. -/
def estimateGas (r : CallRequest) (context : Context) (state : View) : Gas :=
  (r.run context state).result.gasUsed

end CallRequest

end LedgerExec
