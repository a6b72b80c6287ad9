import LedgerExec.KeyFile
import LedgerExec.Proofs.Json.Hexadecimal
import LedgerExec.Proofs.Json.Numerals
set_option autoImplicit false

/-!
# Secret keys read back

A key is spelled by two hexadecimal digits for each byte, each digit in either case
(`Hex.Spells`).  The reader of keys looks for JSON before it looks for digits.  A mark before
the digits keeps them from being JSON, and the text that is written for a key is an object with
a marked spelling in it, so both are read back.  Digits without a mark are JSON if they happen
to be a number, and are then refused as a file without a key: exactly the other spellings are
read (`SecretKey.parse_spellings`).
-/

namespace LedgerExec

/-! ## Blanks -/

namespace Text

/-- A text of blanks. -/
def Blank (s : String) : Prop := ∀ c ∈ s.toList, isBlank c = true

instance (s : String) : Decidable (Blank s) :=
  List.decidableBAll (fun c => isBlank c = true) s.toList

/-- A text that neither begins nor ends with a blank. -/
structure Trimmed (s : String) : Prop where
  first : ∃ c rest, s.toList = c :: rest ∧ isBlank c = false
  last : ∃ front c, s.toList = front ++ [c] ∧ isBlank c = false

theorem trimmed_of_not_blank {s : String} (hsome : s.toList ≠ [])
    (hchars : ∀ c ∈ s.toList, isBlank c = false) : Trimmed s where
  first := by
    obtain ⟨c, rest, heq⟩ := List.exists_cons_of_ne_nil hsome
    exact ⟨c, rest, heq, hchars c (heq ▸ List.mem_cons_self)⟩
  last :=
    ⟨s.toList.dropLast, s.toList.getLast hsome, (List.dropLast_concat_getLast hsome).symm,
      hchars _ (List.getLast_mem hsome)⟩

/-- Blanks around a text are dropped, and nothing of the text. -/
theorem Trimmed.trim_blank {before middle after : String} (hmiddle : Trimmed middle)
    (hbefore : Blank before) (hafter : Blank after) :
    trim (before ++ middle ++ after) = middle := by
  obtain ⟨c, rest, hfirst, hc⟩ := hmiddle.first
  obtain ⟨front, d, hlast, hd⟩ := hmiddle.last
  have hleft : (before ++ middle ++ after).toList.dropWhile isBlank =
      middle.toList ++ after.toList := by
    rw [String.toList_append, String.toList_append, List.append_assoc,
      List.dropWhile_append_of_pos hbefore, hfirst, List.cons_append,
      List.dropWhile_cons_of_neg (by simp [hc])]
  have hright : (middle.toList ++ after.toList).reverse.dropWhile isBlank =
      middle.toList.reverse := by
    rw [List.reverse_append, List.dropWhile_append_of_pos
      (fun c hc => hafter c (List.mem_reverse.mp hc)), hlast, List.reverse_append,
      List.reverse_singleton, List.singleton_append, List.dropWhile_cons_of_neg (by simp [hd])]
  rw [trim, hleft, hright, List.reverse_reverse, String.ofList_toList]

theorem Trimmed.trim_eq {s : String} (hs : Trimmed s) : trim s = s := by
  have hblank : Blank "" := fun c hc => nomatch hc
  have htrim := hs.trim_blank hblank hblank
  rwa [String.empty_append, String.append_empty] at htrim

theorem not_blank_of_hexValue? {c : Char} (hc : (Json.hexValue? c).isSome = true) :
    isBlank c = false := by
  have hcode := Json.code_of_hexValue? hc
  simp only [isBlank, Bool.or_eq_false_iff, Bool.and_eq_false_iff, decide_eq_false_iff_not]
  omega

end Text

/-! ## Spellings -/

namespace Hex

/-- Characters spell a byte string: two digits for each byte, in either case. -/
inductive Spells : List Char → Bytes → Prop
  | nil : Spells [] []
  | cons {a b : Char} {high low : Nat} {digits : List Char} {bytes : Bytes}
      (ha : Json.hexValue? a = some high) (hb : Json.hexValue? b = some low)
      (hrest : Spells digits bytes) :
      Spells (a :: b :: digits) (UInt8.ofNat (16 * high + low) :: bytes)

variable {digits : List Char} {bytes : Bytes}

theorem Spells.hexDigits (h : Spells digits bytes) : Json.HexDigits digits := by
  induction h with
  | nil => exact fun c hc => nomatch hc
  | cons ha hb hrest ih =>
      intro c hc
      rw [List.mem_cons, List.mem_cons] at hc
      rcases hc with rfl | rfl | hc
      · rw [ha]; rfl
      · rw [hb]; rfl
      · exact ih c hc

theorem Spells.length_eq (h : Spells digits bytes) : digits.length = 2 * bytes.length := by
  induction h with
  | nil => rfl
  | cons ha hb hrest ih =>
      simp only [List.length_cons, ih]
      omega

/-- A mark is two characters before the digits. -/
theorem marked_eq (digits : List Char) :
    "0x" ++ String.ofList digits = String.ofList ('0' :: 'x' :: digits) := by
  simp [← String.toList_inj]

/-- What is written for a byte string is one of its spellings. -/
theorem spells_digits (bytes : Bytes) : Spells (Hex.digits bytes) bytes := by
  induction bytes with
  | nil => exact .nil
  | cons byte bytes ih =>
      obtain ⟨hhigh, hlow⟩ := digits_lt byte
      have hbyte : UInt8.ofNat (16 * (byte.toNat / 16) + byte.toNat % 16) = byte := by
        rw [Nat.div_add_mod, UInt8.ofNat_toNat]
      have hspells := Spells.cons (Json.hexValue?_digit _ hhigh) (Json.hexValue?_digit _ hlow) ih
      rwa [hbyte] at hspells

/-- One byte spelled over and over. -/
theorem spells_replicate {a b : Char} {high low : Nat} (ha : Json.hexValue? a = some high)
    (hb : Json.hexValue? b = some low) (count : Nat) :
    Spells (List.replicate count [a, b]).flatten
      (List.replicate count (UInt8.ofNat (16 * high + low))) := by
  induction count with
  | zero => exact .nil
  | succ count ih =>
      rw [List.replicate_succ, List.replicate_succ, List.flatten_cons]
      exact .cons ha hb ih

theorem digitAt_of_hexValue? {c : Char} {value : Nat} (hc : Json.hexValue? c = some value)
    (position : Nat) : digitAt (UInt8.ofNat c.toNat) position = .ok value := by
  unfold Json.hexValue? at hc
  split at hc
  · rw [digitAt, hc]
  · cases hc

theorem Spells.decodePairs (h : Spells digits bytes) (position : Nat) :
    decodePairs (digits.map fun c => UInt8.ofNat c.toNat) position = .ok bytes := by
  induction h generalizing position with
  | nil => rfl
  | cons ha hb hrest ih =>
      rw [List.map_cons, List.map_cons, Hex.decodePairs, digitAt_of_hexValue? ha,
        digitAt_of_hexValue? hb, ih]
      rfl

/-- Every spelling of a byte string is read as the byte string. -/
theorem Spells.decode (h : Spells digits bytes) :
    decode (digits.map fun c => UInt8.ofNat c.toNat) = .ok bytes := by
  rw [Hex.decode, if_neg, h.decodePairs]
  rw [List.length_map, h.length_eq]
  omega

/-- No digit is the `x` of a mark. -/
theorem Spells.not_mem_mark (h : Spells digits bytes) :
    120 ∉ digits.map fun c => UInt8.ofNat c.toNat := by
  intro hmem
  obtain ⟨c, hc, hcode⟩ := List.mem_map.mp hmem
  have hdigit := Json.code_of_hexValue? (h.hexDigits c hc)
  have hvalue : c.toNat % 256 = 120 := by
    rw [← UInt8.toNat_ofNat', hcode]
    rfl
  omega

end Hex

/-! ## Arguments -/

namespace Hex

variable {digits : List Char} {bytes : Bytes}

theorem Spells.trimmed (h : Spells digits bytes) (hsome : digits ≠ []) :
    Text.Trimmed (String.ofList digits) := by
  refine Text.trimmed_of_not_blank (by rwa [String.toList_ofList]) fun c hc => ?_
  rw [String.toList_ofList] at hc
  exact Text.not_blank_of_hexValue? (h.hexDigits c hc)

theorem Spells.marked (h : Spells digits bytes) :
    ∀ c ∈ '0' :: 'x' :: digits, c.toNat < 128 ∧ Text.isBlank c = false := by
  intro c hc
  rw [List.mem_cons, List.mem_cons] at hc
  rcases hc with rfl | rfl | hc
  · decide
  · decide
  · have hcode := Json.code_of_hexValue? (h.hexDigits c hc)
    exact ⟨by omega, Text.not_blank_of_hexValue? (h.hexDigits c hc)⟩

theorem Spells.trimmed_marked (h : Spells digits bytes) :
    Text.Trimmed ("0x" ++ String.ofList digits) := by
  rw [marked_eq]
  refine Text.trimmed_of_not_blank (by rw [String.toList_ofList]; exact List.cons_ne_nil _ _)
    fun c hc => ?_
  rw [String.toList_ofList] at hc
  exact (h.marked c hc).2

end Hex

namespace Argument

variable {digits : List Char} {bytes : Bytes}

theorem bytes_spelling (h : Hex.Spells digits bytes) (hsome : digits ≠ []) (field : String) :
    Argument.bytes field (String.ofList digits) = .ok bytes := by
  have htext : Bytes.ofText (String.ofList digits) = digits.map fun c => UInt8.ofNat c.toNat :=
    Bytes.ofText_ofList fun c hc => (h.marked c (by simp [hc])).1
  rw [Argument.bytes, (h.trimmed hsome).trim_eq, htext, Hex.unmarkedOnce_of_not_mem h.not_mem_mark,
    h.decode]
  rfl

theorem bytes_marked (h : Hex.Spells digits bytes) (field : String) :
    Argument.bytes field ("0x" ++ String.ofList digits) = .ok bytes := by
  rw [Argument.bytes, h.trimmed_marked.trim_eq, Hex.marked_eq,
    Bytes.ofText_ofList fun c hc => (h.marked c hc).1]
  change (Hex.decode (digits.map fun c => UInt8.ofNat c.toNat)).mapError _ = _
  rw [h.decode]
  rfl

end Argument

/-! ## Keys -/

namespace SecretKey

variable {key : SecretKey} {digits : List Char} {content text : String}

/-- What is read of a text once it is settled where its digits are. -/
theorem parse_of_hexText (htext : hexText (Text.trim content) = .ok text)
    (hbytes : Argument.bytes "secret key" text = .ok key.toBytes) : parse content = .ok key := by
  have hread : (Argument.bytes "secret key" text).mapError
      (fun error => CommandError.key error.message) = .ok key.toBytes := by
    rw [hbytes]
    rfl
  simp only [parse, htext, hread, bind, Except.bind, Octets.ofBytes?_toBytes]
  rfl

theorem parse_of_fault {fault : CommandError}
    (htext : hexText (Text.trim content) = .error fault) : parse content = .error fault := by
  simp only [parse, htext, bind, Except.bind]

theorem ne_nil_of_spells (hdigits : Hex.Spells digits key.toBytes) : digits ≠ [] := by
  rintro rfl
  have hlength := hdigits.length_eq
  rw [Octets.length_toBytes] at hlength
  exact absurd hlength (by decide)

/-- The text of a marked spelling is no JSON: a number ends before the `x`. -/
theorem parse?_marked (digits : List Char) :
    Json.parse? ("0x" ++ String.ofList digits) = none := by
  have hscan : Json.scan ("0x" ++ String.ofList digits) = (.number ['0'], false) := by
    simp only [Hex.marked_eq, Json.scan, String.toList_ofList]
    rfl
  rw [Json.parse?, hscan]

/-- The members of a key file. -/
def members (key : SecretKey) : List (String × Json) :=
  [("address", Json.string key.publicKey.address.display),
   ("publicKey", Json.string (Hex.encodeMarked key.publicKey.toBytes)),
   ("scheme", Json.string "ed25519"), (memberName, Json.string (Hex.encodeMarked key.toBytes))]

theorem render_json (key : SecretKey) : key.render .json = (Json.record key.members).pretty := rfl

/-- The file of a key is read as the record that it was written from. -/
theorem parse?_render (key : SecretKey) :
    Json.parse? (key.render .json) = some (Json.record key.members) := by
  have hscans : Json.Scans (Json.record key.members) := by
    refine Json.scans_record fun member hmember => ?_
    simp only [members, List.mem_cons, List.not_mem_nil, or_false] at hmember
    rcases hmember with rfl | rfl | rfl | rfl
    · exact Json.scans_string _
    · exact Json.scans_string _
    · exact Json.scans_string _
    · exact Json.scans_string _
  rw [render_json, Json.parse?_eq_some_iff]
  have hdepth : (Json.record key.members).depth = 1 := rfl
  exact ⟨hscans.scan_pretty, rfl, by rw [hdepth]; decide⟩

theorem textInFile?_members (key : SecretKey) :
    textInFile? (Json.record key.members) = some (Hex.encodeMarked key.toBytes) := by
  simp [textInFile?, Json.record, members, Json.string]

/-- The file of a key begins and ends with a brace. -/
theorem trimmed_render (key : SecretKey) : Text.Trimmed (key.render .json) := by
  have hsome : key.members ≠ [] := List.cons_ne_nil _ _
  have htext := Json.toList_prettyAt_record hsome 0
  rw [← Json.pretty, ← render_json] at htext
  refine ⟨⟨_, _, htext, by decide⟩,
    ⟨'{' :: ((Json.prettyMembers 1 (Json.named key.members)).toList ++ (Json.newLine 0).toList),
      '}', ?_, by decide⟩⟩
  rw [htext, List.cons_append, List.append_assoc]

/-- Why a file without a key is refused. -/
def missingKey : CommandError := .key "Key file missing 'secretKey' field"

/-- A spelling that is a number is taken for a file, in which there is no key. -/
theorem parse_of_numeral {before after : String} (hdigits : Hex.Spells digits key.toBytes)
    (hnumeral : Json.Numeral digits) (hbefore : Text.Blank before) (hafter : Text.Blank after) :
    parse (before ++ String.ofList digits ++ after) = .error missingKey := by
  have hsome := ne_nil_of_spells hdigits
  have hjson : Json.parse? (String.ofList digits) = some (.number digits) :=
    (Json.parse?_hexDigits_iff hdigits.hexDigits hsome).mpr ⟨rfl, hnumeral⟩
  refine parse_of_fault ?_
  rw [(hdigits.trimmed hsome).trim_blank hbefore hafter, hexText, hjson]
  rfl

/-- A key is read back from each of its spellings after a mark, from those without one that are
not a number, and from its file, with any blanks around them.  The other spellings are refused. -/
theorem parse_spellings (key : SecretKey) (digits : List Char) (before after : String)
    (hdigits : Hex.Spells digits key.toBytes) (hbefore : Text.Blank before)
    (hafter : Text.Blank after) :
    parse (before ++ ("0x" ++ String.ofList digits) ++ after) = .ok key ∧
      (¬Json.Numeral digits → parse (before ++ String.ofList digits ++ after) = .ok key) ∧
      (Json.Numeral digits →
        parse (before ++ String.ofList digits ++ after) = .error missingKey) ∧
      parse (before ++ key.render .json ++ after) = .ok key := by
  have hsome := ne_nil_of_spells hdigits
  refine ⟨?_, ?_, fun hnumeral => parse_of_numeral hdigits hnumeral hbefore hafter, ?_⟩
  · have htrim := hdigits.trimmed_marked.trim_blank hbefore hafter
    refine parse_of_hexText ?_ (Argument.bytes_marked hdigits "secret key")
    rw [htrim, hexText, parse?_marked]
  · intro hnumeral
    have hnone : Json.parse? (String.ofList digits) = none :=
      Option.eq_none_iff_forall_ne_some.mpr fun tree htree =>
        hnumeral ((Json.parse?_hexDigits_iff hdigits.hexDigits hsome).mp htree).2
    refine parse_of_hexText ?_ (Argument.bytes_spelling hdigits hsome "secret key")
    rw [(hdigits.trimmed hsome).trim_blank hbefore hafter, hexText, hnone]
  · have htrim := (trimmed_render key).trim_blank hbefore hafter
    refine parse_of_hexText ?_ (Argument.bytes_marked (Hex.spells_digits _) "secret key")
    simp only [htrim, hexText, parse?_render, textInFile?_members]
    rfl

/-- The key of 32 bytes of one value. -/
def repeated (byte : UInt8) : SecretKey := Octets.ofLowOrder .secretKey (List.replicate 32 byte)

/-- Two digits for each of the bytes of a key. -/
def spelling (a b : Char) : List Char := (List.replicate 32 [a, b]).flatten

theorem spells_ones : Hex.Spells (spelling '1' '1') (repeated 0x11).toBytes := by
  have hbytes : (repeated 0x11).toBytes = List.replicate 32 0x11 := by decide +kernel
  rw [hbytes]
  exact Hex.spells_replicate (a := '1') (b := '1') rfl rfl 32

theorem numeral_ones : Json.Numeral (spelling '1' '1') where
  decimal :=
    have hdigits : Json.Digits (spelling '1' '1') := ⟨by decide, List.all_eq_true.mp (by decide)⟩
    ⟨spelling '1' '1', [], rfl, .inr ⟨hdigits, by decide⟩, .inl rfl⟩
  finite := by decide +kernel

theorem spells_letters : Hex.Spells (spelling 'a' 'B') (repeated 0xab).toBytes := by
  have hbytes : (repeated 0xab).toBytes = List.replicate 32 0xab := by decide +kernel
  rw [hbytes]
  exact Hex.spells_replicate (a := 'a') (b := 'B') rfl rfl 32

/-- With letters other than `e` the digits of a key are read in either case, with blanks around
them; digits that are all decimal are refused. -/
theorem parse_spellings_repeated :
    parse (" " ++ String.ofList (spelling 'a' 'B') ++ "\n") = .ok (repeated 0xab) ∧
      parse (" " ++ String.ofList (spelling '1' '1') ++ "\n") = .error missingKey := by
  have hspace : Text.Blank " " := by decide
  have hline : Text.Blank "\n" := by decide
  have hletters : ¬Json.Numeral (spelling 'a' 'B') := by
    intro hnumeral
    have hscan := Json.scanNumber_of_decimal spells_letters.hexDigits hnumeral.decimal
    exact nomatch hscan
  exact ⟨(parse_spellings _ _ _ _ spells_letters hspace hline).2.1 hletters,
    (parse_spellings _ _ _ _ spells_ones hspace hline).2.2.1 numeral_ones⟩

/-- Digits of a key that are not read as the key: 64 times the digit one. -/
theorem ones_refused :
    Hex.Spells (spelling '1' '1') (repeated 0x11).toBytes ∧
      parse (String.ofList (spelling '1' '1')) = .error missingKey ∧
      parse (String.ofList (spelling '1' '1')) ≠ .ok (repeated 0x11) := by
  have hnone : Text.Blank "" := by decide
  have hrefused := parse_of_numeral spells_ones numeral_ones hnone hnone
  rw [String.empty_append, String.append_empty] at hrefused
  refine ⟨spells_ones, hrefused, ?_⟩
  rw [hrefused]
  exact fun h => nomatch h

end SecretKey

end LedgerExec
