import LedgerExec.Unsigned
set_option autoImplicit false

/-!
# Byte strings and the numbers they spell

A byte string is a list of bytes.  A number has two fixed-width spellings: the
big-endian one of addresses, words and digests, and the little-endian one of the
binary encoding.  Reading back what was written gives the number modulo the
width, and a spelling has exactly the width asked for.
-/

namespace LedgerExec

/-- A byte string. -/
abbrev Bytes : Type := List UInt8

namespace Bytes

/-- The `count` low-order bytes of a number, least significant first. -/
def littleEndian : Nat → Nat → Bytes
  | 0, _ => []
  | count + 1, value => UInt8.ofNat value :: littleEndian count (value / 256)

/-- The number whose bytes are given, least significant first. -/
def ofLittleEndian : Bytes → Nat
  | [] => 0
  | byte :: rest => byte.toNat + 256 * ofLittleEndian rest

/-- The `count` low-order bytes of a number, most significant first. -/
def bigEndian (count value : Nat) : Bytes := (littleEndian count value).reverse

/-- The number whose bytes are given, most significant first. -/
def ofBigEndian (bytes : Bytes) : Nat :=
  bytes.foldl (fun value byte => value * 256 + byte.toNat) 0

@[simp] theorem length_littleEndian (count value : Nat) :
    (littleEndian count value).length = count := by
  induction count generalizing value with
  | zero => rfl
  | succ count ih => simp [littleEndian, ih]

@[simp] theorem length_bigEndian (count value : Nat) :
    (bigEndian count value).length = count := by
  simp [bigEndian]

/-- A byte more makes room for 256 times as many numbers. -/
theorem limit_succ (count : Nat) : 1 <<< (8 * (count + 1)) = 256 * (1 <<< (8 * count)) := by
  rw [Nat.mul_succ, Nat.shiftLeft_add, Nat.shiftLeft_eq _ 8, Nat.mul_comm]

theorem ofLittleEndian_littleEndian (count value : Nat) :
    ofLittleEndian (littleEndian count value) = value % (1 <<< (8 * count)) := by
  induction count generalizing value with
  | zero => simp [littleEndian, ofLittleEndian, Nat.mod_one]
  | succ count ih =>
    have low : (UInt8.ofNat value).toNat = value % 256 := UInt8.toNat_ofNat'
    rw [littleEndian, ofLittleEndian, ih, low, limit_succ, Nat.mod_mul]

theorem ofLittleEndian_lt (bytes : Bytes) : ofLittleEndian bytes < 1 <<< (8 * bytes.length) := by
  induction bytes with
  | nil => decide
  | cons byte rest ih =>
    have := byte.toNat_lt
    simp only [ofLittleEndian, List.length_cons, limit_succ]
    omega

theorem littleEndian_ofLittleEndian (bytes : Bytes) :
    littleEndian bytes.length (ofLittleEndian bytes) = bytes := by
  induction bytes with
  | nil => rfl
  | cons byte rest ih =>
    have hb := byte.toNat_lt
    have hdiv : (byte.toNat + 256 * ofLittleEndian rest) / 256 = ofLittleEndian rest := by omega
    have hmod : UInt8.ofNat (byte.toNat + 256 * ofLittleEndian rest) = byte := by
      apply UInt8.toNat_inj.mp
      simp only [UInt8.toNat_ofNat']
      omega
    simp only [List.length_cons, ofLittleEndian, littleEndian, hdiv, hmod, ih]

theorem ofBigEndian_eq_ofLittleEndian_reverse (bytes : Bytes) :
    ofBigEndian bytes = ofLittleEndian bytes.reverse := by
  have step : ∀ (bs : Bytes), ofLittleEndian bs =
      bs.foldr (fun byte value => value * 256 + byte.toNat) 0 := by
    intro bs
    induction bs with
    | nil => rfl
    | cons byte rest ih =>
      simp only [ofLittleEndian, List.foldr_cons, ← ih]
      omega
  rw [step, List.foldr_reverse]
  rfl

theorem ofBigEndian_bigEndian (count value : Nat) :
    ofBigEndian (bigEndian count value) = value % (1 <<< (8 * count)) := by
  rw [ofBigEndian_eq_ofLittleEndian_reverse, bigEndian, List.reverse_reverse,
    ofLittleEndian_littleEndian]

theorem ofBigEndian_lt (bytes : Bytes) : ofBigEndian bytes < 1 <<< (8 * bytes.length) := by
  rw [ofBigEndian_eq_ofLittleEndian_reverse]
  simpa using ofLittleEndian_lt bytes.reverse

theorem bigEndian_ofBigEndian (bytes : Bytes) :
    bigEndian bytes.length (ofBigEndian bytes) = bytes := by
  have h := littleEndian_ofLittleEndian bytes.reverse
  rw [List.length_reverse] at h
  rw [bigEndian, ofBigEndian_eq_ofLittleEndian_reverse, h, List.reverse_reverse]

/-! ## Text -/

/-- The UTF-8 bytes of a text. -/
def ofText (text : String) : Bytes := text.toByteArray.data.toList

/-- The text whose UTF-8 bytes are given, if there is one. -/
def toText? (bytes : Bytes) : Option String := String.fromUTF8? ⟨bytes.toArray⟩

/-- Bytes are a text exactly if they are the bytes of it. -/
theorem toText?_eq_some_iff {bytes : Bytes} {text : String} :
    toText? bytes = some text ↔ ofText text = bytes := by
  unfold toText? String.fromUTF8?
  constructor
  · intro h
    split at h
    · obtain rfl := Option.some.inj h
      rfl
    · exact nomatch h
  · rintro rfl
    exact dif_pos text.isValidUTF8

end Bytes

end LedgerExec
