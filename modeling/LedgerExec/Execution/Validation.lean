import LedgerExec.Execution.Context
set_option autoImplicit false

/-!
# Validation

Before anything is written a transaction is checked: the gas of the block, the
intrinsic cost, the nonce, the money, the receiver and the signature, in this
order.  The first check that fails is the reason for the rejection.  The sender
is looked up in the cache once the two checks of gas have passed.
-/

namespace LedgerExec

/-- Why a transaction is not executed. -/
inductive Rejection where
  | blockGasLimitReached (available : Int) (gasLimit : Gas)
  | notEnoughGas (required gasLimit : Gas)
  | invalidNonce (required actual : Nonce)
  | notEnoughCash (required available : Balance)
  | receiverTooLong (size : Nat)
  | signatureNotAccepted (authority : String)
  deriving DecidableEq, Repr, Inhabited

/-- The wording of a rejection. -/
def Rejection.message : Rejection → String
  | .blockGasLimitReached available gasLimit =>
    s!"Too much gas used in this block: available in block: {available} tx sent: {gasLimit}"
  | .notEnoughGas required gasLimit =>
    s!"Not enough gas for transaction execution: tx needs: {required} tx sent: {gasLimit}"
  | .invalidNonce required actual =>
    s!"Invalid nonce: required: {required} , tx.nonce: {actual}"
  | .notEnoughCash required available =>
    s!"Not enough cash: Require: {required}, Sender cash: {available}"
  | .receiverTooLong size => s!"Receiver address too long: size: {size}"
  | .signatureNotAccepted authority => s!"Transaction signature not accepted: {authority}"

namespace Job

/-- Whether the block has room for the gas limit, and the gas limit for the intrinsic cost. -/
def checkGas (j : Job) : Except Rejection Unit :=
  let limit := j.transaction.gasLimit
  let blockLimit := Gas.cap j.context.block.gasLimit
  let cumulative := Gas.add limit j.gasBefore
  if blockLimit < cumulative ∨ cumulative = Gas.ceiling then
    .error (.blockGasLimitReached ((blockLimit.toNat : Int) - limit.toNat) limit)
  else if limit < j.basicCost then .error (.notEnoughGas j.basicCost limit)
  else .ok ()

/-- The money that the sender must have: the value, and the price of both limits unless the
transaction is free. -/
def totalCost (j : Job) : Balance :=
  let value := j.transaction.payload.value
  if 0 < j.basicCost then
    Unsigned.addSat (Unsigned.addSat value j.gasPrepayment) j.rentPrepayment
  else value

/-- Whether the nonce is the next one of the sender. -/
def checkNonce (j : Job) (outer : View) (sender : Address) : Except Rejection Unit :=
  let required := outer.nonce sender
  if required = j.transaction.payload.nonce then .ok ()
  else .error (.invalidNonce required j.transaction.payload.nonce)

/-- Whether the sender can pay. -/
def checkCash (j : Job) (outer : View) (sender : Address) : Except Rejection Unit :=
  let available := outer.balance sender
  if available < j.totalCost then .error (.notEnoughCash j.totalCost available) else .ok ()

/-- Whether the receiver is short enough. -/
def checkReceiver (j : Job) : Except Rejection Unit :=
  let size := j.transaction.payload.receiver.length
  if size ≠ 0 ∧ j.context.chain.limits.maxReceiverLength.toNat < size then
    .error (.receiverTooLong size)
  else .ok ()

/-- Whether the signature is for this chain and verifies. -/
def checkSignature (j : Job) : Except Rejection Unit :=
  if j.transaction.isAcceptedOn j.context.chain.chainId then .ok ()
  else .error (.signatureNotAccepted j.transaction.displayAuthority)

/-- The checks that need to know the sender. -/
def checkSender (j : Job) (outer : View) (sender : Address) : Except Rejection Unit := do
  j.checkNonce outer sender
  j.checkCash outer sender
  j.checkReceiver
  j.checkSignature

/-- All checks, with the cache as they leave it.  A local call is not checked. -/
def validate (j : Job) (outer : View) (senders : SenderCache) :
    Except Rejection Unit × SenderCache :=
  if j.isLocal then (.ok (), senders)
  else
    match j.checkGas with
    | .error rejection => (.error rejection, senders)
    | .ok () =>
      let (sender, senders) := senders.sender j.transaction
      (j.checkSender outer sender, senders)

end Job

end LedgerExec
