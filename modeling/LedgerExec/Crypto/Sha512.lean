import LedgerExec.Bytes
set_option autoImplicit false

/-!
# The SHA-512 digest

A message is closed by a one bit, zeros and its length in bits, cut into blocks
of 128 bytes, and folded into eight 64-bit words.  The sixteen words of a block
are kept as a window that moves on by one word per round, so the schedule is
never stored.
-/

namespace LedgerExec.Sha512

/-- The round constants: the fractions of the cube roots of the first eighty primes. -/
def constants : List UInt64 := [
  0x428A2F98D728AE22, 0x7137449123EF65CD, 0xB5C0FBCFEC4D3B2F, 0xE9B5DBA58189DBBC,
  0x3956C25BF348B538, 0x59F111F1B605D019, 0x923F82A4AF194F9B, 0xAB1C5ED5DA6D8118,
  0xD807AA98A3030242, 0x12835B0145706FBE, 0x243185BE4EE4B28C, 0x550C7DC3D5FFB4E2,
  0x72BE5D74F27B896F, 0x80DEB1FE3B1696B1, 0x9BDC06A725C71235, 0xC19BF174CF692694,
  0xE49B69C19EF14AD2, 0xEFBE4786384F25E3, 0x0FC19DC68B8CD5B5, 0x240CA1CC77AC9C65,
  0x2DE92C6F592B0275, 0x4A7484AA6EA6E483, 0x5CB0A9DCBD41FBD4, 0x76F988DA831153B5,
  0x983E5152EE66DFAB, 0xA831C66D2DB43210, 0xB00327C898FB213F, 0xBF597FC7BEEF0EE4,
  0xC6E00BF33DA88FC2, 0xD5A79147930AA725, 0x06CA6351E003826F, 0x142929670A0E6E70,
  0x27B70A8546D22FFC, 0x2E1B21385C26C926, 0x4D2C6DFC5AC42AED, 0x53380D139D95B3DF,
  0x650A73548BAF63DE, 0x766A0ABB3C77B2A8, 0x81C2C92E47EDAEE6, 0x92722C851482353B,
  0xA2BFE8A14CF10364, 0xA81A664BBC423001, 0xC24B8B70D0F89791, 0xC76C51A30654BE30,
  0xD192E819D6EF5218, 0xD69906245565A910, 0xF40E35855771202A, 0x106AA07032BBD1B8,
  0x19A4C116B8D2D0C8, 0x1E376C085141AB53, 0x2748774CDF8EEB99, 0x34B0BCB5E19B48A8,
  0x391C0CB3C5C95A63, 0x4ED8AA4AE3418ACB, 0x5B9CCA4F7763E373, 0x682E6FF3D6B2B8A3,
  0x748F82EE5DEFB2FC, 0x78A5636F43172F60, 0x84C87814A1F0AB72, 0x8CC702081A6439EC,
  0x90BEFFFA23631E28, 0xA4506CEBDE82BDE9, 0xBEF9A3F7B2C67915, 0xC67178F2E372532B,
  0xCA273ECEEA26619C, 0xD186B8C721C0C207, 0xEADA7DD6CDE0EB1E, 0xF57D4F7FEE6ED178,
  0x06F067AA72176FBA, 0x0A637DC5A2C898A6, 0x113F9804BEF90DAE, 0x1B710B35131C471B,
  0x28DB77F523047D84, 0x32CAAB7B40C72493, 0x3C9EBE0A15C9BEBC, 0x431D67C49C100D4C,
  0x4CC5D4BECB3E42B6, 0x597F299CFC657E2A, 0x5FCB6FAB3AD6FAEC, 0x6C44198C4A475817]

/-- The eight words between two blocks. -/
structure State where
  a : UInt64
  b : UInt64
  c : UInt64
  d : UInt64
  e : UInt64
  f : UInt64
  g : UInt64
  h : UInt64
  deriving DecidableEq, Repr, Inhabited

/-- The words before the first block: the fractions of the square roots of the first eight
primes. -/
def State.initial : State := ⟨
  0x6A09E667F3BCC908, 0xBB67AE8584CAA73B, 0x3C6EF372FE94F82B, 0xA54FF53A5F1D36F1,
  0x510E527FADE682D1, 0x9B05688C2B3E6C1F, 0x1F83D9ABFB41BD6B, 0x5BE0CD19137E2179⟩

/-- A word turned right. -/
@[inline] def turn (word count : UInt64) : UInt64 := (word >>> count) ||| (word <<< (64 - count))

/-- One round with its constant and its word of the schedule. -/
def State.round (s : State) (constant word : UInt64) : State :=
  let t1 := s.h + (turn s.e 14 ^^^ turn s.e 18 ^^^ turn s.e 41) +
    ((s.e &&& s.f) ^^^ ((s.e ^^^ 0xFFFFFFFFFFFFFFFF) &&& s.g)) + constant + word
  let t2 := (turn s.a 28 ^^^ turn s.a 34 ^^^ turn s.a 39) +
    ((s.a &&& s.b) ^^^ (s.a &&& s.c) ^^^ (s.b &&& s.c))
  ⟨t1 + t2, s.a, s.b, s.c, s.d + t1, s.e, s.f, s.g⟩

/-- Word-wise sum. -/
def State.add (s t : State) : State :=
  ⟨s.a + t.a, s.b + t.b, s.c + t.c, s.d + t.d, s.e + t.e, s.f + t.f, s.g + t.g, s.h + t.h⟩

/-- The window moved on by one word. -/
def advance : List UInt64 → List UInt64
  | [w0, w1, w2, w3, w4, w5, w6, w7, w8, w9, w10, w11, w12, w13, w14, w15] =>
    let s0 := turn w1 1 ^^^ turn w1 8 ^^^ (w1 >>> 7)
    let s1 := turn w14 19 ^^^ turn w14 61 ^^^ (w14 >>> 6)
    [w1, w2, w3, w4, w5, w6, w7, w8, w9, w10, w11, w12, w13, w14, w15, w0 + s0 + w9 + s1]
  | window => window

/-- The rounds for the constants that are left. -/
def rounds : List UInt64 → List UInt64 → State → State
  | constant :: rest, word :: window, s =>
    rounds rest (advance (word :: window)) (s.round constant word)
  | _, _, s => s

/-- The big-endian words of a byte string. -/
def words : Bytes → List UInt64
  | b0 :: b1 :: b2 :: b3 :: b4 :: b5 :: b6 :: b7 :: rest =>
    UInt64.ofNat (Bytes.ofBigEndian [b0, b1, b2, b3, b4, b5, b6, b7]) :: words rest
  | _ => []

/-- Folds the blocks of a padded message, at most `fuel` of them, into the words. -/
def blocks : Nat → List UInt64 → State → State
  | fuel + 1, word :: rest, s =>
    blocks fuel ((word :: rest).drop 16) (s.add (rounds constants ((word :: rest).take 16) s))
  | _, _, s => s

/-- The message closed by a one bit, zeros and its length in bits. -/
def padded (message : Bytes) : Bytes :=
  let zeros := (111 + 128 - message.length % 128) % 128
  message ++ 0x80 :: List.replicate zeros 0 ++ Bytes.bigEndian 16 (8 * message.length)

/-- The digest of a message: 64 bytes. -/
def digest (message : Bytes) : Bytes :=
  let s := blocks (message.length / 128 + 2) (words (padded message)) State.initial
  [s.a, s.b, s.c, s.d, s.e, s.f, s.g, s.h].flatMap fun word => Bytes.bigEndian 8 word.toNat

/-- A digest has 64 bytes. -/
@[simp] theorem length_digest (message : Bytes) : (digest message).length = 64 := by
  simp [digest]

end LedgerExec.Sha512
