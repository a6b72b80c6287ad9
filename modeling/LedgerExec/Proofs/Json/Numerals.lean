import LedgerExec.Proofs.Json.Scanning
set_option autoImplicit false

/-!
# Hexadecimal digits that are JSON

No name, string, array or object of JSON begins with hexadecimal digits and goes on with them,
and a number that is made of them has neither sign nor fraction.  `Json.Numeral` is the grammar
of the numbers that are left, decimal digits with at most one `e` among them, and a text of
hexadecimal digits is JSON exactly if it is one (`parse?_hexDigits_iff`).

The parts of a number are each described from both sides: what is scanned is cut off the text,
and what the grammar allows is scanned.
-/

namespace LedgerExec.Json

variable {chars part rest : List Char}

/-! ## Hexadecimal digits -/

/-- Every character is a hexadecimal digit, in either case. -/
def HexDigits (chars : List Char) : Prop := ∀ c ∈ chars, (hexValue? c).isSome = true

/-- A hexadecimal digit is between `0` and `9`, `a` and `f` or `A` and `F`. -/
theorem code_of_hexValue? {c : Char} (hc : (hexValue? c).isSome = true) :
    48 ≤ c.toNat ∧ c.toNat ≤ 57 ∨ 97 ≤ c.toNat ∧ c.toNat ≤ 102 ∨
      65 ≤ c.toNat ∧ c.toNat ≤ 70 := by
  unfold hexValue? at hc
  split at hc
  · rename_i hascii
    have hcode : (UInt8.ofNat c.toNat).toNat = c.toNat := by
      rw [UInt8.toNat_ofNat']
      omega
    simp only [Hex.digitValue?, hcode] at hc
    split at hc
    · omega
    · split at hc
      · omega
      · split at hc
        · omega
        · exact nomatch hc
  · exact nomatch hc

theorem HexDigits.not_mem (hchars : HexDigits chars) {c : Char} (hc : hexValue? c = none) :
    c ∉ chars := by
  intro hmem
  have hdigit := hchars c hmem
  rw [hc] at hdigit
  exact nomatch hdigit

theorem HexDigits.append_right (hchars : HexDigits (part ++ rest)) : HexDigits rest :=
  fun c hc => hchars c (List.mem_append_right part hc)

theorem HexDigits.skipBlank_eq (hchars : HexDigits chars) : skipBlank chars = chars := by
  cases chars with
  | nil => rfl
  | cons c chars =>
      have hcode := code_of_hexValue? (hchars c List.mem_cons_self)
      refine skipBlank_of_mark ?_ chars
      cases hblank : isBlank c with
      | false => rfl
      | true =>
          simp only [isBlank, Bool.or_eq_true, decide_eq_true_eq] at hblank
          rcases hblank with ((rfl | rfl) | rfl) | rfl <;> exact absurd hcode (by decide)

/-! ## The grammar -/

/-- A run of decimal digits. -/
structure Digits (chars : List Char) : Prop where
  ne_nil : chars ≠ []
  all : ∀ c ∈ chars, isDigit c = true

/-- The whole part of a number: a zero, or digits that do not begin with one. -/
def Whole (chars : List Char) : Prop :=
  chars = ['0'] ∨ Digits chars ∧ chars.head? ≠ some '0'

/-- The exponent of a number without its sign; it may be missing. -/
def Power (chars : List Char) : Prop :=
  chars = [] ∨ ∃ e digits, chars = e :: digits ∧ (e = 'e' ∨ e = 'E') ∧ Digits digits

/-- A number of the grammar without signs and fraction. -/
def Decimal (chars : List Char) : Prop :=
  ∃ whole power, chars = whole ++ power ∧ Whole whole ∧ Power power

/-- A number without signs and fraction that is within the range of double precision. -/
structure Numeral (chars : List Char) : Prop where
  decimal : Decimal chars
  finite : isFinite chars = true

/-! ## Digits -/

/-- Digits are scanned as far as they go. -/
theorem scanDigits_eq_some_iff :
    scanDigits chars = some (part, rest) ↔
      chars = part ++ rest ∧ Digits part ∧ ∀ c ∈ rest.head?, isDigit c = false := by
  simp only [scanDigits]
  constructor
  · intro h
    split at h
    · cases h
    · rename_i hsome
      obtain ⟨rfl, rfl⟩ := Prod.mk.inj (Option.some.inj h)
      refine ⟨List.takeWhile_append_dropWhile.symm,
        ⟨fun hnil => hsome (List.isEmpty_iff.mpr hnil), List.all_eq_true.mp List.all_takeWhile⟩, ?_⟩
      intro c hc
      have hhead := List.head?_dropWhile_not isDigit chars
      rw [Option.mem_def.mp hc] at hhead
      simpa using hhead
  · rintro ⟨rfl, hdigits, hrest⟩
    have hstop : rest.takeWhile isDigit = [] ∧ rest.dropWhile isDigit = rest := by
      cases rest with
      | nil => exact ⟨rfl, rfl⟩
      | cons c rest =>
          have hc := hrest c rfl
          exact ⟨List.takeWhile_cons_of_neg (by simp [hc]),
            List.dropWhile_cons_of_neg (by simp [hc])⟩
    have htaken : (part ++ rest).takeWhile isDigit = part := by
      rw [List.takeWhile_append_of_pos hdigits.all, hstop.1, List.append_nil]
    have hleft : (part ++ rest).dropWhile isDigit = rest := by
      rw [List.dropWhile_append_of_pos hdigits.all, hstop.2]
    simp only [htaken, hleft, List.isEmpty_iff, hdigits.ne_nil, if_false]

/-- The whole part is scanned as the digits are, except that a zero stands alone. -/
theorem whole_of_scanWhole (h : scanWhole chars = some (part, rest)) :
    chars = part ++ rest ∧ Whole part := by
  unfold scanWhole at h
  split at h
  · obtain ⟨rfl, rfl⟩ := Prod.mk.inj (Option.some.inj h)
    exact ⟨rfl, .inl rfl⟩
  · rename_i hzero
    obtain ⟨rfl, hdigits, -⟩ := scanDigits_eq_some_iff.mp h
    refine ⟨rfl, .inr ⟨hdigits, ?_⟩⟩
    cases part with
    | nil => exact absurd rfl hdigits.ne_nil
    | cons c part =>
        intro hc
        obtain rfl := Option.some.inj hc
        exact hzero _ rfl

theorem scanWhole_of_whole (hpart : Whole part) (hrest : ∀ c ∈ rest.head?, isDigit c = false) :
    scanWhole (part ++ rest) = some (part, rest) := by
  cases hpart with
  | inl hzero =>
      rw [hzero]
      rfl
  | inr hdigits =>
      obtain ⟨hdigits, hzero⟩ := hdigits
      have hscan := scanDigits_eq_some_iff.mpr ⟨rfl, hdigits, hrest⟩
      unfold scanWhole
      split
      · rename_i other heq
        cases part with
        | nil => exact absurd rfl hdigits.ne_nil
        | cons c part =>
            rw [List.cons_append] at heq
            rw [(List.cons.inj heq).1] at hzero
            exact absurd rfl hzero
      · exact hscan

/-! ## Numbers -/

theorem scanFraction_hexDigits (hchars : HexDigits chars) :
    scanFraction chars = some ([], chars) := by
  unfold scanFraction
  split
  · exact absurd List.mem_cons_self (hchars.not_mem (c := '.') rfl)
  · rfl

/-- Among hexadecimal digits the letter of an exponent is followed by no sign. -/
theorem scanExponent_letter {e : Char} (he : e = 'e' ∨ e = 'E') (hchars : HexDigits chars) :
    scanExponent (e :: chars) =
      (scanDigits chars).map fun scanned => (e :: scanned.1, scanned.2) := by
  have hletter : (e = 'e' || e = 'E') = true := by simpa using he
  simp only [scanExponent, hletter, if_true]
  cases chars with
  | nil => rfl
  | cons c chars =>
      have hsign : ¬(c = '+' || c = '-') = true := by
        rw [Bool.or_eq_true, decide_eq_true_eq, decide_eq_true_eq]
        rintro (rfl | rfl)
        · exact hchars.not_mem rfl List.mem_cons_self
        · exact hchars.not_mem rfl List.mem_cons_self
      simp only [hsign, Bool.false_eq_true, if_false]

theorem power_of_scanExponent (hchars : HexDigits chars)
    (h : scanExponent chars = some (part, rest)) : chars = part ++ rest ∧ Power part := by
  cases chars with
  | nil =>
      obtain ⟨rfl, rfl⟩ := Prod.mk.inj (Option.some.inj h)
      exact ⟨rfl, .inl rfl⟩
  | cons e chars =>
      by_cases he : e = 'e' ∨ e = 'E'
      · rw [scanExponent_letter he fun c hc => hchars c (List.mem_cons_of_mem e hc),
          Option.map_eq_some_iff] at h
        obtain ⟨⟨digits, left⟩, hscan, heq⟩ := h
        obtain ⟨rfl, hdigits, -⟩ := scanDigits_eq_some_iff.mp hscan
        obtain ⟨rfl, rfl⟩ := Prod.mk.inj heq
        exact ⟨rfl, .inr ⟨e, digits, rfl, he, hdigits⟩⟩
      · have hletter : (e = 'e' || e = 'E') = false := by simpa using he
        simp only [scanExponent, hletter, Bool.false_eq_true, if_false] at h
        obtain ⟨rfl, rfl⟩ := Prod.mk.inj (Option.some.inj h)
        exact ⟨rfl, .inl rfl⟩

theorem scanExponent_of_power (hpart : Power part) (hchars : HexDigits part) :
    scanExponent part = some (part, []) := by
  obtain rfl | ⟨e, digits, rfl, he, hdigits⟩ := hpart
  · rfl
  · have hscan : scanDigits digits = some (digits, []) :=
      scanDigits_eq_some_iff.mpr ⟨(List.append_nil digits).symm, hdigits, fun c hc => nomatch hc⟩
    rw [scanExponent_letter he fun c hc => hchars c (List.mem_cons_of_mem e hc), hscan]
    rfl

/-- The exponent begins with no decimal digit, so the whole part ends before it. -/
theorem Power.head?_not_digit (hpart : Power part) : ∀ c ∈ part.head?, isDigit c = false := by
  obtain rfl | ⟨e, digits, rfl, he, -⟩ := hpart
  · exact fun c hc => nomatch hc
  · intro c hc
    obtain rfl := Option.some.inj hc
    rcases he with rfl | rfl <;> rfl

theorem scanNumber_hexDigits (hchars : HexDigits chars) :
    scanNumber chars = (do
      let (whole, left) ← scanWhole chars
      let (power, left) ← scanExponent left
      return (whole ++ power, left)) := by
  have hunsigned : scanNumber chars = scanUnsigned chars := by
    unfold scanNumber
    split
    · exact absurd List.mem_cons_self (hchars.not_mem (c := '-') rfl)
    · rfl
  rw [hunsigned, scanUnsigned]
  cases hwhole : scanWhole chars with
  | none => rfl
  | some scanned =>
      obtain ⟨rfl, -⟩ := whole_of_scanWhole hwhole
      have hleft := hchars.append_right
      simp only [Option.bind_eq_bind, Option.bind_some, scanFraction_hexDigits hleft,
        List.append_nil]

/-- What is scanned as a number stands at the front and follows the grammar. -/
theorem decimal_of_scanNumber (hchars : HexDigits chars)
    (h : scanNumber chars = some (part, rest)) : chars = part ++ rest ∧ Decimal part := by
  simp only [scanNumber_hexDigits hchars, Option.bind_eq_bind, Option.bind_eq_some_iff] at h
  obtain ⟨⟨whole, left⟩, hscan, ⟨power, left'⟩, hexponent, heq⟩ := h
  obtain ⟨rfl, hwhole⟩ := whole_of_scanWhole hscan
  obtain ⟨rfl, hpower⟩ := power_of_scanExponent hchars.append_right hexponent
  obtain ⟨rfl, rfl⟩ := Prod.mk.inj (Option.some.inj heq)
  exact ⟨(List.append_assoc _ _ _).symm, whole, power, rfl, hwhole, hpower⟩

/-- A number of the grammar is scanned to its end. -/
theorem scanNumber_of_decimal (hchars : HexDigits chars) (hdecimal : Decimal chars) :
    scanNumber chars = some (chars, []) := by
  obtain ⟨whole, power, rfl, hwhole, hpower⟩ := hdecimal
  rw [scanNumber_hexDigits hchars, scanWhole_of_whole hwhole hpower.head?_not_digit]
  simp only [Option.bind_eq_bind, Option.bind_some,
    scanExponent_of_power hpower hchars.append_right]
  rfl

/-! ## Whole texts -/

/-- A value that begins with hexadecimal digits and goes on with them can only be a number. -/
theorem scanValue_hexDigits (hchars : HexDigits chars) (hsome : chars ≠ []) (fuel : Nat) :
    scanValue (fuel + 1) chars =
      match scanNumber chars with
      | some (lexeme, left) => (.number lexeme, some left)
      | none => (.broken, none) := by
  have hnot {c : Char} (hc : hexValue? c = none) := hchars.not_mem hc
  rw [scanValue, hchars.skipBlank_eq]
  split
  · exact absurd List.mem_cons_self (hnot (c := 'n') rfl)
  · exact absurd List.mem_cons_self (hnot (c := 't') rfl)
  · -- the one name that begins with hexadecimal digits does not go on with them
    exact absurd (by simp) (hnot (c := 'l') rfl)
  · exact absurd List.mem_cons_self (hnot (c := '"') rfl)
  · exact absurd List.mem_cons_self (hnot (c := '[') rfl)
  · exact absurd List.mem_cons_self (hnot (c := '{') rfl)
  · rfl

/-- Hexadecimal digits are the text of a tree exactly if they are a number of the grammar. -/
theorem scan_hexDigits_iff (hchars : HexDigits chars) (hsome : chars ≠ []) {tree : Json} :
    scan (String.ofList chars) = (tree, true) ↔ tree = .number chars ∧ Decimal chars := by
  have hvalue := scanValue_hexDigits hchars hsome (2 * chars.length + 1)
  simp only [scan, String.toList_ofList, hvalue]
  constructor
  · intro h
    cases hscan : scanNumber chars with
    | none =>
        rw [hscan] at h
        exact nomatch (Prod.mk.inj h).2
    | some scanned =>
        obtain ⟨lexeme, left⟩ := scanned
        obtain ⟨rfl, hdecimal⟩ := decimal_of_scanNumber hchars hscan
        rw [hscan] at h
        obtain ⟨rfl, hclosed⟩ := Prod.mk.inj h
        rw [hchars.append_right.skipBlank_eq, List.isEmpty_iff] at hclosed
        rw [hclosed, List.append_nil]
        exact ⟨rfl, hdecimal⟩
  · rintro ⟨rfl, hdecimal⟩
    rw [scanNumber_of_decimal hchars hdecimal]
    rfl

theorem parse?_eq_some_iff {input : String} {tree : Json} :
    parse? input = some tree ↔
      scan input = (tree, true) ∧ tree.isStrict = true ∧ tree.depth ≤ depthLimit := by
  unfold parse?
  split
  · rename_i found hscan
    rw [hscan]
    constructor
    · intro h
      split at h
      · rename_i hstrict
        obtain rfl := Option.some.inj h
        rw [Bool.and_eq_true, decide_eq_true_eq] at hstrict
        exact ⟨rfl, hstrict⟩
      · exact nomatch h
    · rintro ⟨heq, hstrict, hdepth⟩
      obtain rfl := (Prod.mk.inj heq).1
      rw [if_pos (by simp [hstrict, hdepth])]
  · rename_i hscan
    rw [hscan]
    constructor
    · exact fun h => nomatch h
    · exact fun h => nomatch (Prod.mk.inj h.1).2

/-- Hexadecimal digits are JSON exactly if they are a number in range, and then nothing else. -/
theorem parse?_hexDigits_iff (hchars : HexDigits chars) (hsome : chars ≠ []) {tree : Json} :
    parse? (String.ofList chars) = some tree ↔ tree = .number chars ∧ Numeral chars := by
  rw [parse?_eq_some_iff, scan_hexDigits_iff hchars hsome]
  constructor
  · rintro ⟨⟨rfl, hdecimal⟩, hstrict, -⟩
    exact ⟨rfl, hdecimal, hstrict⟩
  · rintro ⟨rfl, hdecimal, hfinite⟩
    exact ⟨⟨rfl, hdecimal⟩, hfinite, Nat.zero_le _⟩

end LedgerExec.Json
