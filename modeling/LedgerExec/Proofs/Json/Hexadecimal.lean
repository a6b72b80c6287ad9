import LedgerExec.Proofs.Json.ReadBack
set_option autoImplicit false

/-!
# Hexadecimal text read back

The digits of a byte string are characters of one byte each, so the bytes of the text are
the digits one by one (`Bytes.ofText_ofList`), and each pair of them is read as the byte that
it was written for.  No digit is an `x`, so nothing but the one mark that was written is
dropped before the digits are read.
-/

namespace LedgerExec

/-! ## Text of one byte for each character -/

theorem utf8EncodeChar_of_ascii {c : Char} (hc : c.toNat < 128) :
    String.utf8EncodeChar c = [UInt8.ofNat c.toNat] := by
  have hsize : c.utf8Size = 1 := by
    rw [Char.utf8Size_eq_one_iff, UInt32.le_iff_toNat_le]
    change c.toNat ≤ 127
    omega
  rw [String.utf8EncodeChar_eq_singleton hsize]
  rfl

/-- A text of characters of one byte has the codes of the characters as its bytes. -/
theorem Bytes.ofText_ofList {chars : List Char} (hchars : ∀ c ∈ chars, c.toNat < 128) :
    Bytes.ofText (String.ofList chars) = chars.map fun c => UInt8.ofNat c.toNat := by
  rw [Bytes.ofText, String.toByteArray_ofList, List.utf8Encode, List.toList_data_toByteArray]
  induction chars with
  | nil => rfl
  | cons c chars ih =>
      rw [List.flatMap_cons, utf8EncodeChar_of_ascii (hchars c List.mem_cons_self),
        ih fun d hd => hchars d (List.mem_cons_of_mem c hd)]
      rfl

namespace Hex

/-! ## Digits -/

/-- The byte of a digit in a text. -/
def digitByte (value : Nat) : UInt8 := UInt8.ofNat (digit value).toNat

theorem digit_ascii {value : Nat} (h : value < 16) :
    (digit value).toNat < 128 ∧ digitByte value ≠ 120 := by
  have hdigits : ∀ v : Fin 16, (digit v).toNat < 128 ∧ digitByte v ≠ 120 := by decide
  exact hdigits ⟨value, h⟩

theorem digits_lt (byte : UInt8) : byte.toNat / 16 < 16 ∧ byte.toNat % 16 < 16 := by
  have hbyte := byte.toNat_lt
  omega

theorem digits_ascii (bytes : Bytes) : ∀ c ∈ digits bytes, c.toNat < 128 := by
  intro c hc
  rw [digits, List.mem_flatMap] at hc
  obtain ⟨byte, -, hc⟩ := hc
  obtain ⟨hhigh, hlow⟩ := digits_lt byte
  rw [List.mem_cons, List.mem_singleton] at hc
  rcases hc with rfl | rfl
  · exact (digit_ascii hhigh).1
  · exact (digit_ascii hlow).1

/-- The bytes of the digits of a byte string. -/
def digitBytes (bytes : Bytes) : Bytes :=
  bytes.flatMap fun byte => [digitByte (byte.toNat / 16), digitByte (byte.toNat % 16)]

theorem map_digits (bytes : Bytes) :
    (digits bytes).map (fun c => UInt8.ofNat c.toNat) = digitBytes bytes := by
  rw [digits, List.map_flatMap]
  rfl

theorem ofText_encodeMarked (bytes : Bytes) :
    Bytes.ofText (encodeMarked bytes) = 48 :: 120 :: digitBytes bytes := by
  have hmarked : encodeMarked bytes = String.ofList ('0' :: 'x' :: digits bytes) := by
    rw [← String.ofList_toList (s := encodeMarked bytes), encodeMarked, String.toList_append,
      encode, String.toList_ofList, String.toList_ofList]
    rfl
  rw [hmarked, Bytes.ofText_ofList, List.map_cons, List.map_cons, map_digits]
  · rfl
  · intro c hc
    rw [List.mem_cons, List.mem_cons] at hc
    rcases hc with rfl | rfl | hc
    · decide
    · decide
    · exact digits_ascii bytes c hc

/-! ## Marks -/

/-- A text without an `x` has no mark. -/
theorem unmarked_of_not_mem {text : Bytes} (hmark : 120 ∉ text) : unmarked text = text := by
  unfold unmarked
  split
  · exact absurd (List.mem_cons_of_mem _ List.mem_cons_self) hmark
  · rfl

theorem unmarkedOnce_of_not_mem {text : Bytes} (hmark : 120 ∉ text) : unmarkedOnce text = text := by
  unfold unmarkedOnce
  split
  · exact absurd (List.mem_cons_of_mem _ List.mem_cons_self) hmark
  · rfl

theorem not_mem_digitBytes (bytes : Bytes) : 120 ∉ digitBytes bytes := by
  intro hmem
  rw [digitBytes, List.mem_flatMap] at hmem
  obtain ⟨byte, -, hmem⟩ := hmem
  obtain ⟨hhigh, hlow⟩ := digits_lt byte
  rw [List.mem_cons, List.mem_singleton] at hmem
  rcases hmem with heq | heq
  · exact (digit_ascii hhigh).2 heq.symm
  · exact (digit_ascii hlow).2 heq.symm

/-! ## Reading -/

theorem digitAt_digitByte {value : Nat} (h : value < 16) (position : Nat) :
    digitAt (digitByte value) position = .ok value := by
  rw [digitAt, digitByte, digitValue?_digit h]

theorem decodePairs_digitBytes (bytes : Bytes) (position : Nat) :
    decodePairs (digitBytes bytes) position = .ok bytes := by
  induction bytes generalizing position with
  | nil => rfl
  | cons byte bytes ih =>
      obtain ⟨hhigh, hlow⟩ := digits_lt byte
      have hbyte : UInt8.ofNat (16 * (byte.toNat / 16) + byte.toNat % 16) = byte := by
        rw [Nat.div_add_mod, UInt8.ofNat_toNat]
      have hrest := ih (position + 2)
      rw [digitBytes, List.flatMap_cons]
      change decodePairs (digitByte (byte.toNat / 16) :: digitByte (byte.toNat % 16) ::
        digitBytes bytes) position = _
      rw [decodePairs, digitAt_digitByte hhigh, digitAt_digitByte hlow, hrest]
      change Except.ok (UInt8.ofNat (16 * (byte.toNat / 16) + byte.toNat % 16) :: bytes) = _
      rw [hbyte]

/-- A marked text is read as the bytes that it was written for. -/
theorem decodeMarked_encodeMarked (bytes : Bytes) : decodeMarked (encodeMarked bytes) = .ok bytes := by
  have hlength : (digitBytes bytes).length = 2 * bytes.length := by
    rw [← map_digits, List.length_map, length_digits]
  rw [decodeMarked, ofText_encodeMarked, unmarked, unmarked_of_not_mem (not_mem_digitBytes bytes),
    decode, if_neg (by omega), decodePairs_digitBytes]

end Hex

namespace Json

/-! ## Byte strings of a fixed length

The kind is left open until the last step, as comparing readers of addresses would compute
with the bytes of one. -/

variable {kind : OctetKind}

/-- A byte string that is written after a mark is read from its text. -/
theorem octetsOfText_encodeMarked (x : Octets kind) :
    octetsOfText kind (Hex.encodeMarked x.toBytes) = .ok x := by
  have hbytes : (Hex.decodeMarked (Hex.encodeMarked x.toBytes)).mapError Fault.hex =
      .ok x.toBytes := by
    rw [Hex.decodeMarked_encodeMarked]
    rfl
  simp only [octetsOfText, hbytes, bind, Except.bind, Octets.ofBytes?_toBytes]
  rfl

theorem octetsToText_of_marked (hkind : kind ≠ .signature) (x : Octets kind) :
    octetsToText x = Hex.encodeMarked x.toBytes := by
  unfold octetsToText
  split
  · exact absurd rfl hkind
  · rfl

theorem readsBack_octets (hkind : kind ≠ .signature) (harray : isArray kind = false)
    (x : Octets kind) : ReadsBack x := by
  have htree : toJson x = string (octetsToText x) := by
    simp only [Codec.toJson, harray, Bool.false_eq_true, if_false]
  refine ⟨htree ▸ scans_string _, ?_⟩
  rw [htree, octetsToText_of_marked hkind]
  simp only [Codec.ofJson, harray, Bool.false_eq_true, if_false]
  exact octetsOfText_encodeMarked x

theorem nameReadsBack_octets (hkind : kind ≠ .signature) (x : Octets kind) : NameReadsBack x := by
  change octetsOfText kind (octetsToText x) = _
  rw [octetsToText_of_marked hkind, octetsOfText_encodeMarked]

theorem readsBack_address (address : Address) : ReadsBack address :=
  readsBack_octets (by decide) rfl address

theorem readsBack_option_address (address? : Option Address) : ReadsBack address? :=
  readsBack_option fun address _ => ⟨readsBack_address address, string_ne_null _⟩

theorem nameReadsBack_address (address : Address) : NameReadsBack address :=
  nameReadsBack_octets (by decide) address

theorem readsBack_digest (digest : Digest) : ReadsBack digest :=
  readsBack_octets (by decide) rfl digest

end Json

end LedgerExec
