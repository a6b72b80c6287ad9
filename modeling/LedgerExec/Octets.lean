import LedgerExec.Hex
import LedgerExec.Crypto.Blake3
set_option autoImplicit false

/-!
# Fixed-length byte strings: addresses, digests, words, keys

Every fixed-length byte string of the ledger is a number read big-endian, tagged
with the kind of thing it is, so an address can not be taken for a digest.  The
order of the numbers is the order of the bytes.
-/

namespace LedgerExec

/-- What a fixed-length byte string is. -/
inductive OctetKind where
  /-- the name of an account -/
  | address
  /-- a BLAKE3 digest -/
  | digest
  /-- a storage key, a storage value or a log topic -/
  | word
  /-- an Ed25519 public key -/
  | publicKey
  /-- an Ed25519 secret key -/
  | secretKey
  /-- an Ed25519 signature -/
  | signature
  deriving DecidableEq, Repr, Inhabited

/-- The number of bytes of a kind. -/
def OctetKind.size : OctetKind → Nat
  | .address => 20
  | .digest | .word | .publicKey | .secretKey => 32
  | .signature => 64

/-- A byte string of the length of its kind. -/
@[ext]
structure Octets (kind : OctetKind) where
  number : Unsigned (8 * kind.size)
  deriving DecidableEq, Repr, Inhabited

namespace Octets

variable {kind : OctetKind}

instance : Ord (Octets kind) := ⟨fun x y => compare x.number y.number⟩

instance : Std.TransOrd (Octets kind) where
  eq_swap {x y} := Std.OrientedOrd.eq_swap (a := x.number) (b := y.number)
  isLE_trans {x y z} :=
    Std.TransOrd.isLE_trans (a := x.number) (b := y.number) (c := z.number)

instance : Std.LawfulEqOrd (Octets kind) where
  compare_self {x} := Std.ReflOrd.compare_self (a := x.number)
  eq_of_compare {x y} h :=
    Octets.ext (Std.LawfulEqOrd.eq_of_compare (a := x.number) (b := y.number) h)

/-- All bytes zero. -/
def zero : Octets kind := ⟨0⟩

/-- The low-order part of a number. -/
def ofNat (kind : OctetKind) (value : Nat) : Octets kind := ⟨Unsigned.truncate _ value⟩

/-- The last bytes of a byte string, zeros standing before a shorter one. -/
def ofLowOrder (kind : OctetKind) (bytes : Bytes) : Octets kind :=
  ofNat kind (Bytes.ofBigEndian bytes)

/-- A byte string of exactly the right length. -/
def ofBytes? (kind : OctetKind) (bytes : Bytes) : Option (Octets kind) :=
  if bytes.length = kind.size then some (ofLowOrder kind bytes) else none

/-- The bytes, most significant first. -/
def toBytes (x : Octets kind) : Bytes := Bytes.bigEndian kind.size x.number.toNat

/-- The lower-case hexadecimal digits. -/
def toHex (x : Octets kind) : String := Hex.encode x.toBytes

@[simp] theorem length_toBytes (x : Octets kind) : x.toBytes.length = kind.size :=
  Bytes.length_bigEndian _ _

theorem ofLowOrder_toBytes (x : Octets kind) : ofLowOrder kind x.toBytes = x := by
  have h := x.number.isLt
  apply Octets.ext
  apply Unsigned.ext
  change Bytes.ofBigEndian (Bytes.bigEndian _ _) % (1 <<< (8 * kind.size)) = _
  rw [Bytes.ofBigEndian_bigEndian, Nat.mod_mod, Nat.mod_eq_of_lt h]

/-- Bytes read back. -/
theorem ofBytes?_toBytes (x : Octets kind) : ofBytes? kind x.toBytes = some x := by
  simp [ofBytes?, ofLowOrder_toBytes]

theorem toBytes_inj {x y : Octets kind} : x.toBytes = y.toBytes ↔ x = y :=
  ⟨fun h => by rw [← ofLowOrder_toBytes x, h, ofLowOrder_toBytes], fun h => h ▸ rfl⟩

end Octets

/-! ## The kinds -/

/-- The name of an account: 20 bytes. -/
abbrev Address : Type := Octets .address

/-- A BLAKE3 digest: 32 bytes. -/
abbrev Digest : Type := Octets .digest

/-- A storage key, a storage value or a log topic: 32 bytes. -/
abbrev Word : Type := Octets .word

/-- An Ed25519 public key: 32 bytes. -/
abbrev PublicKey : Type := Octets .publicKey

/-- An Ed25519 secret key: 32 bytes. -/
abbrev SecretKey : Type := Octets .secretKey

/-- An Ed25519 signature: 64 bytes. -/
abbrev Signature : Type := Octets .signature

namespace Digest

/-- The digest of a byte string. -/
def ofMessage (message : Bytes) : Digest := Octets.ofLowOrder .digest (Blake3.digest message)

/-- The digest of the parts of a message after a tag that names its domain. -/
def tagged (tag : Bytes) (parts : List Bytes) : Digest := ofMessage (tag ++ parts.flatten)

/-- The digest as a storage word. -/
def toWord (digest : Digest) : Word := ⟨digest.number⟩

/-- The first eight bytes in hexadecimal, for people. -/
def short (digest : Digest) : String := Hex.encode (digest.toBytes.take 8)

end Digest

namespace Word

/-- Whether every byte is zero. -/
def isZero (word : Word) : Bool := word.number.toNat == 0

end Word

namespace Address

/-- The last 20 bytes of a digest. -/
def ofDigest (digest : Digest) : Address := Octets.ofNat .address digest.number.toNat

/-- The address as people write it: lower-case digits after `0x`. -/
def display (address : Address) : String := Hex.encodeMarked address.toBytes

/-- Reads an address after any number of `0x` marks. -/
def ofHex (text : String) : Except Hex.Fault Address := do
  let bytes ← Hex.decodeMarked text
  match Octets.ofBytes? .address bytes with
  | some address => return address
  | none => .error .wrongLength

end Address

/-! ## Numbers of the ledger -/

/-- An amount of gas. -/
abbrev Gas : Type := Unsigned 64

/-- An amount of money in the smallest unit. -/
abbrev Balance : Type := Unsigned 128

/-- The number of transactions an account has sent. -/
abbrev Nonce : Type := Unsigned 64

/-- The number of a block. -/
abbrev Height : Type := Unsigned 64

/-- Seconds since 1970. -/
abbrev Timestamp : Type := Unsigned 64

/-- A count or an index of a machine's word size. -/
abbrev Count : Type := Unsigned 64

/-- The number that names a chain; zero stands for every chain. -/
abbrev ChainId : Type := Unsigned 8

end LedgerExec
