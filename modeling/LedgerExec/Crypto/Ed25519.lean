import LedgerExec.Crypto.Sha512
set_option autoImplicit false

/-!
# Ed25519 signatures

Keys and signatures over the twisted Edwards curve `-x² + y² = 1 + d x² y²` in
the field of `2^255 - 19` elements.  Field elements are natural numbers taken
modulo that prime, points are kept in extended coordinates.

Verification recomputes `[s]B - [k]A` and compares its encoding with the first
half of the signature byte by byte, without multiplying by the cofactor.  The
scalar `s` must be below the group order.  A public key is accepted when it
decompresses: its `y` may be spelled beyond the prime, and the sign of `x = 0`
may be set.
-/

namespace LedgerExec.Ed25519

/-! ## The field -/

/-- The prime of the field. -/
def prime : Nat := (1 <<< 255) - 19

/-- The order of the base point. -/
def order : Nat := (1 <<< 252) + 27742317777372353535851937790883648493

namespace Element

/-- Sum in the field. -/
def add (x y : Nat) : Nat := (x + y) % prime

/-- Difference in the field, of elements below the prime. -/
def sub (x y : Nat) : Nat := (x + prime - y) % prime

/-- Product in the field. -/
def mul (x y : Nat) : Nat := (x * y) % prime

/-- The `count` low-order bits of a number, most significant first. -/
def bits : Nat → Nat → List Bool
  | 0, _ => []
  | count + 1, value => value.testBit count :: bits count value

/-- A power in the field, for exponents below `2 ^ 255`. -/
def pow (x exponent : Nat) : Nat :=
  (bits 255 exponent).foldl (fun acc bit => let s := mul acc acc; if bit then mul s x else s) 1

/-- The inverse of an element that is not zero. -/
def inverse (x : Nat) : Nat := pow x (prime - 2)

/-- A square root of minus one. -/
def rootOfMinusOne : Nat :=
  19681161376707505956807079304988542015446066515923890162744021073123829784752

/-- The even square root of a quotient, if the quotient is a square. -/
def sqrtRatio? (u v : Nat) : Option Nat :=
  let v3 := mul (mul v v) v
  let v7 := mul (mul v3 v3) v
  let r := mul (mul u v3) (pow (mul u v7) ((prime - 5) / 8))
  let check := mul v (mul r r)
  let even (x : Nat) : Nat := if x % 2 = 1 then prime - x else x
  if check = u then some (even r)
  else if check = sub 0 u then some (even (mul r rootOfMinusOne))
  else none

end Element

/-! ## The curve -/

/-- The constant of the curve. -/
def curveD : Nat :=
  37095705934669439343138083508754565189542113879843219016388785533085940283555

/-- A point in extended coordinates: `x = X/Z`, `y = Y/Z`, `xy = T/Z`. -/
structure Point where
  x : Nat
  y : Nat
  z : Nat
  t : Nat
  deriving DecidableEq, Repr, Inhabited

namespace Point

open Element

/-- The neutral point. -/
def zero : Point := ⟨0, 1, 1, 0⟩

/-- The sum of two points. -/
def add (p q : Point) : Point :=
  let a := mul (sub p.y p.x) (sub q.y q.x)
  let b := mul (p.y + p.x) (q.y + q.x)
  let c := mul (mul p.t (2 * curveD)) q.t
  let d := mul p.z (2 * q.z)
  let e := sub b a
  let f := sub d c
  let g := d + c
  let h := b + a
  ⟨mul e f, mul g h, mul f g, mul e h⟩

/-- Twice a point. -/
def double (p : Point) : Point :=
  let a := mul p.x p.x
  let b := mul p.y p.y
  let c := mul p.z (2 * p.z)
  let h := Element.add a b
  let s := p.x + p.y
  let e := sub h (mul s s)
  let g := sub a b
  let f := Element.add c g
  ⟨mul e f, mul g h, mul f g, mul e h⟩

/-- The opposite of a point. -/
def neg (p : Point) : Point := ⟨sub 0 p.x, p.y, p.z, sub 0 p.t⟩

/-- A multiple of a point, for factors below `2 ^ 256`. -/
def scale (factor : Nat) (p : Point) : Point :=
  (bits 256 factor).foldl (fun acc bit => if bit then acc.double.add p else acc.double) zero

/-- The 32 bytes of a point: `y`, with the parity of `x` in the top bit. -/
def compress (p : Point) : Bytes :=
  let i := inverse p.z
  let x := mul p.x i
  let y := mul p.y i
  Bytes.littleEndian 32 (y + ((x % 2) <<< 255))

/-- The point that 32 bytes spell, if there is one. -/
def decompress? (bytes : Bytes) : Option Point :=
  let value := Bytes.ofLittleEndian bytes
  let y := value % (1 <<< 255) % prime
  let yy := mul y y
  match sqrtRatio? (sub yy 1) (Element.add (mul curveD yy) 1) with
  | none => none
  | some even =>
    let x := if value.testBit 255 then sub 0 even else even
    some ⟨x, y, 1, mul x y⟩

/-- The base point. -/
def base : Point :=
  let x := 15112221349535400772501151409588531511454012693041857206046113283949847762202
  let y := 46316835694926478169428394003475163141307993866256225615783033603165251855960
  ⟨x, y, 1, mul x y⟩

end Point

/-! ## Keys and signatures -/

/-- The scalar in the first half of a hashed secret key: a multiple of 8 with bit 254 as its
highest. -/
def secretScalar (hashed : Bytes) : Nat :=
  let value := Bytes.ofLittleEndian (hashed.take 32) % (1 <<< 254)
  value - value % 8 + (1 <<< 254)

/-- A hashed text as a scalar. -/
def hashScalar (message : Bytes) : Nat := Bytes.ofLittleEndian (Sha512.digest message) % order

/-- The public key of a secret key. -/
def publicKey (secret : Bytes) : Bytes :=
  (Point.scale (secretScalar (Sha512.digest secret)) Point.base).compress

/-- The signature of a message: 64 bytes. -/
def sign (secret message : Bytes) : Bytes :=
  let hashed := Sha512.digest secret
  let scalar := secretScalar hashed
  let nonce := hashScalar (hashed.drop 32 ++ message)
  let commitment := (Point.scale nonce Point.base).compress
  let challenge := hashScalar (commitment ++ (Point.scale scalar Point.base).compress ++ message)
  commitment ++ Bytes.littleEndian 32 ((nonce + challenge * scalar) % order)

/-- Whether a signature of a message verifies under a public key. -/
def verify (key signature message : Bytes) : Bool :=
  let commitment := signature.take 32
  let scalar := Bytes.ofLittleEndian (signature.drop 32)
  if scalar < order then
    match Point.decompress? key with
    | none => false
    | some point =>
      let challenge := hashScalar (commitment ++ key ++ message)
      ((Point.scale scalar Point.base).add (Point.scale challenge point.neg)).compress == commitment
  else false

@[simp] theorem Point.length_compress (p : Point) : p.compress.length = 32 := by
  simp [Point.compress]

/-- A public key has 32 bytes. -/
@[simp] theorem length_publicKey (secret : Bytes) : (publicKey secret).length = 32 := by
  simp [publicKey]

/-- A signature has 64 bytes. -/
@[simp] theorem length_sign (secret message : Bytes) : (sign secret message).length = 64 := by
  simp [sign]

end LedgerExec.Ed25519
