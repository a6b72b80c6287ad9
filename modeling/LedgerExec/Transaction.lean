import LedgerExec.Gas
import LedgerExec.Crypto.Ed25519
set_option autoImplicit false

/-!
# Transactions

The payload of a transaction is what its signature covers.  The authority says
whose transaction it is: an envelope with a public key and a signature, or, for
local calls only, a sender that is simply named.  The address of a key is the end
of the tagged digest of the key.
-/

namespace LedgerExec

/-! ## Keys and envelopes -/

/-- What a signed message starts with. -/
def signingDomain : String := "KRATOS_TRANSACTION_V1:"

/-- The tag of the digest that a key's address is taken from. -/
def addressDomain : String := "KRATOS_ADDRESS_V1:"

namespace PublicKey

/-- The address of a key. -/
def address (key : PublicKey) : Address :=
  Address.ofDigest (Digest.tagged (Bytes.ofText addressDomain) [key.toBytes])

end PublicKey

namespace SecretKey

/-- The public key of a secret key. -/
def publicKey (key : SecretKey) : PublicKey :=
  Octets.ofLowOrder .publicKey (Ed25519.publicKey key.toBytes)

/-- The signature of a message. -/
def sign (key : SecretKey) (message : Bytes) : Signature :=
  Octets.ofLowOrder .signature (Ed25519.sign key.toBytes message)

end SecretKey

/-- A signature beside the key that verifies it. -/
@[ext]
structure Envelope where
  publicKey : PublicKey
  signature : Signature
  deriving DecidableEq, Repr, Inhabited

namespace Envelope

/-- The envelope of a message under a secret key. -/
def sign (key : SecretKey) (message : Bytes) : Envelope := ⟨key.publicKey, key.sign message⟩

/-- The address of the embedded key. -/
def signer (e : Envelope) : Address := e.publicKey.address

/-- Whether the signature verifies under the embedded key. -/
def verify (e : Envelope) (message : Bytes) : Bool :=
  Ed25519.verify e.publicKey.toBytes e.signature.toBytes message

/-- The beginning of a signature, for people. -/
def displaySignature (s : Signature) : String :=
  Hex.encodeMarked (s.toBytes.take 8) ++ ".."

/-- The beginnings of signature and key, for people. -/
def display (e : Envelope) : String :=
  displaySignature e.signature ++ " by " ++ Hex.encode (e.publicKey.toBytes.take 8)

instance : Wire Envelope where
  encode e := Wire.encode e.publicKey ++ Wire.encode e.signature
  decode := do
    let publicKey ← Wire.decode
    let signature ← Wire.decode
    return { publicKey, signature }

/-- The fields of an envelope as JSON. -/
def fields : Json.Record Envelope := Envelope.mk <$> .field "public_key" <*> .field "signature"

instance : Json.Codec Envelope where
  toJson e := Json.record
    [("public_key", Json.toJson e.publicKey), ("signature", Json.toJson e.signature)]
  ofJson := fields.ofJson

end Envelope

/-! ## Payloads -/

/-- The part of a transaction that is signed. -/
@[ext]
structure Payload where
  nonce : Nonce := 0
  gasPrice : Balance := 0
  gasLimit : Gas := 0
  /-- gas for storage rent, paid in advance together with `gasLimit` -/
  rentGasLimit : Gas := 0
  /-- the receiver's bytes as sent; empty for the creation of a contract -/
  receiver : Bytes := []
  value : Balance := 0
  data : Bytes := []
  /-- the chain the transaction is for; zero means any -/
  chainId : ChainId := 0
  deriving DecidableEq, Repr, Inhabited

namespace Payload

instance : Wire Payload where
  encode p :=
    Wire.encode p.nonce ++ Wire.encode p.gasPrice ++ Wire.encode p.gasLimit ++
      Wire.encode p.rentGasLimit ++ Wire.encode p.receiver ++ Wire.encode p.value ++
      Wire.encode p.data ++ Wire.encode p.chainId
  decode := do
    let nonce ← Wire.decode
    let gasPrice ← Wire.decode
    let gasLimit ← Wire.decode
    let rentGasLimit ← Wire.decode
    let receiver ← Wire.decode
    let value ← Wire.decode
    let data ← Wire.decode
    let chainId ← Wire.decode
    return { nonce, gasPrice, gasLimit, rentGasLimit, receiver, value, data, chainId }

/-- The fields of a payload as JSON. -/
def fields : Json.Record Payload :=
  Payload.mk <$> .field "nonce" <*> .field "gas_price" <*> .field "gas_limit"
    <*> .field "rent_gas_limit" <*> .field "receiver" <*> .field "value" <*> .field "data"
    <*> .field "chain_id"

instance : Json.Codec Payload where
  toJson p := Json.record
    [("nonce", Json.toJson p.nonce), ("gas_price", Json.toJson p.gasPrice),
     ("gas_limit", Json.toJson p.gasLimit), ("rent_gas_limit", Json.toJson p.rentGasLimit),
     ("receiver", Json.toJson p.receiver), ("value", Json.toJson p.value),
     ("data", Json.toJson p.data), ("chain_id", Json.toJson p.chainId)]
  ofJson := fields.ofJson

/-- The message that is signed. -/
def signingMessage (p : Payload) : Bytes := Bytes.ofText signingDomain ++ Wire.encode p

end Payload

/-! ## Transactions -/

/-- Whose transaction it is. -/
inductive Authority where
  | signed (envelope : Envelope)
  | localCall (sender : Address)
  deriving DecidableEq, Repr, Inhabited

namespace Authority

instance : Wire Authority where
  encode
    | .signed envelope => Wire.encodeCase 0 ++ Wire.encode envelope
    | .localCall sender => Wire.encodeCase 1 ++ Wire.encode sender
  decode := do
    match ← Wire.decodeCase with
    | 0 => return .signed (← Wire.decode)
    | 1 => return .localCall (← Wire.decode)
    | _ => Wire.fail

/-- The fields of a named sender as JSON. -/
def localFields : Json.Record Authority := Authority.localCall <$> .field "sender"

instance : Json.Codec Authority where
  toJson
    | .signed envelope => Json.record [("Signed", Json.toJson envelope)]
    | .localCall sender =>
      Json.record [("LocalCall", Json.record [("sender", Json.toJson sender)])]
  ofJson := Json.readCase fun s payload =>
    match s, payload with
    | "Signed", some tree => (Json.ofJson tree).map .signed
    | "LocalCall", some tree => localFields.ofJson tree
    | _, _ => .error .malformed

end Authority

/-- A payload with its authority. -/
@[ext]
structure Transaction where
  payload : Payload
  authority : Authority
  deriving DecidableEq, Repr, Inhabited

namespace Payload

/-- The payload signed with a secret key. -/
def sign (p : Payload) (key : SecretKey) : Transaction :=
  ⟨p, .signed (Envelope.sign key p.signingMessage)⟩

/-- The payload as a local call of a named sender. -/
def asLocalCall (p : Payload) (sender : Address) : Transaction := ⟨p, .localCall sender⟩

end Payload

namespace Transaction

instance : Wire Transaction where
  encode t := Wire.encode t.payload ++ Wire.encode t.authority
  decode := do
    let payload ← Wire.decode
    let authority ← Wire.decode
    return { payload, authority }

/-- The fields of a transaction as JSON. -/
def fields : Json.Record Transaction := Transaction.mk <$> .field "unsigned" <*> .field "auth"

instance : Json.Codec Transaction where
  toJson t := Json.record
    [("unsigned", Json.toJson t.payload), ("auth", Json.toJson t.authority)]
  ofJson := fields.ofJson

/-- The digest of the whole transaction. -/
def hash (t : Transaction) : Digest := Digest.ofMessage (Wire.encode t)

/-- The account that sends the transaction. -/
def sender (t : Transaction) : Address :=
  match t.authority with
  | .signed envelope => envelope.signer
  | .localCall sender => sender

/-- The receiver, unless the transaction creates a contract. -/
def receiver? (t : Transaction) : Option Address :=
  if t.payload.receiver.isEmpty then none
  else some (Octets.ofLowOrder .address t.payload.receiver)

/-- Whether the transaction creates a contract. -/
def isCreation (t : Transaction) : Bool := t.payload.receiver.isEmpty

/-- Whether the sender is only named. -/
def isLocalCall (t : Transaction) : Bool :=
  match t.authority with
  | .signed _ => false
  | .localCall _ => true

/-- The gas limit, cut to the ceiling. -/
def gasLimit (t : Transaction) : Gas := Gas.cap t.payload.gasLimit

/-- The limit of rent gas, cut to the ceiling. -/
def rentGasLimit (t : Transaction) : Gas := Gas.cap t.payload.rentGasLimit

/-- How many bytes of the data are not zero. -/
def dataBytes (t : Transaction) : Nat := t.payload.data.countP (· != 0)

/-- Whether the transaction is for a chain and its signature verifies. -/
def isAcceptedOn (t : Transaction) (chain : ChainId) : Bool :=
  if t.payload.chainId ≠ 0 ∧ t.payload.chainId ≠ chain then false
  else
    match t.authority with
    | .signed envelope => envelope.verify t.payload.signingMessage
    | .localCall _ => false

/-- The authority, for people. -/
def displayAuthority (t : Transaction) : String :=
  match t.authority with
  | .signed envelope => envelope.display
  | .localCall _ => "unsigned"

/-- The gas that every transaction is charged: a base and a price per byte of data.  A free
transaction is charged nothing. -/
def intrinsicCost (t : Transaction) (free : Bool) : Gas :=
  if free then 0
  else
    let base := if t.isCreation then Gas.forCreation else Gas.forCall
    let zeros := Unsigned.clamp 64 (t.payload.data.length - t.dataBytes)
    let others := Unsigned.clamp 64 t.dataBytes
    Gas.add base (Gas.add (Gas.mul zeros Gas.perZeroByte) (Gas.mul others Gas.perDataByte))

end Transaction

end LedgerExec
