import LedgerExec.Proofs.Json.SecretKeys
set_option autoImplicit false

/-!
# Texts of addresses

An address is written in forty hexadecimal digits, which may stand after a mark.  Three
readers take it from a text: that of addresses, that of JSON strings, and that of byte
arguments followed by a look at the length.  All of them take the digits in either case and
nothing but digits after the marks (`Hex.DropsMarks.decode_eq_ok_iff`), and what they read is
what the digits spell.  They differ in the marks: the first two drop any number of them, the
third one at most (`Address.readers_accept`).
-/

namespace LedgerExec

/-- A text is known by its bytes. -/
theorem Bytes.ofText_inj {s t : String} : ofText s = ofText t ↔ s = t := by
  refine ⟨fun hbytes => ?_, congrArg ofText⟩
  have hs : toText? (ofText s) = some s := toText?_eq_some_iff.mpr rfl
  have ht : toText? (ofText t) = some t := toText?_eq_some_iff.mpr rfl
  rw [hbytes, ht] at hs
  exact (Option.some.inj hs).symm

namespace Hex

variable {digits : List Char} {bytes text : Bytes}

/-! ## Digits -/

/-- A byte that is a digit is the code of one. -/
theorem exists_hexValue? {byte : UInt8} {value : Nat} (hvalue : digitValue? byte = some value) :
    ∃ c : Char, UInt8.ofNat c.toNat = byte ∧ Json.hexValue? c = some value := by
  have hascii : byte.toNat < 128 := by
    unfold digitValue? at hvalue
    simp only at hvalue
    split at hvalue
    · omega
    · split at hvalue
      · omega
      · split at hvalue
        · omega
        · cases hvalue
  have hcodes : ∀ code : Fin 128, (Char.ofNat code).toNat = code := by decide
  have hcode : (Char.ofNat byte.toNat).toNat = byte.toNat := hcodes ⟨byte.toNat, hascii⟩
  have hbyte : UInt8.ofNat (Char.ofNat byte.toNat).toNat = byte := by
    rw [hcode, UInt8.ofNat_toNat]
  refine ⟨Char.ofNat byte.toNat, hbyte, ?_⟩
  rw [Json.hexValue?, hbyte, if_pos (by omega), hvalue]

theorem digitValue?_of_digitAt {byte : UInt8} {position value : Nat}
    (hread : digitAt byte position = .ok value) : digitValue? byte = some value := by
  unfold digitAt at hread
  split at hread
  · rename_i found hfound
    rw [hfound, Except.ok.inj hread]
  · cases hread

/-- What is read in pairs is a spelling. -/
theorem exists_spells_of_decodePairs {position : Nat}
    (hread : decodePairs text position = .ok bytes) :
    ∃ digits, text = digits.map (fun c => UInt8.ofNat c.toNat) ∧ Spells digits bytes := by
  fun_induction decodePairs text position generalizing bytes with
  | case1 position =>
      obtain rfl := Except.ok.inj hread
      exact ⟨[], rfl, .nil⟩
  | case2 => cases hread
  | case3 high low rest position ih =>
      cases hhigh : digitAt high position with
      | error fault => rw [hhigh] at hread; cases hread
      | ok h =>
      cases hlow : digitAt low (position + 1) with
      | error fault => rw [hhigh, hlow] at hread; cases hread
      | ok l =>
      cases hrest : decodePairs rest (position + 2) with
      | error fault => rw [hhigh, hlow, hrest] at hread; cases hread
      | ok tail =>
      rw [hhigh, hlow, hrest] at hread
      obtain rfl := Except.ok.inj hread
      obtain ⟨a, hahigh, ha⟩ := exists_hexValue? (digitValue?_of_digitAt hhigh)
      obtain ⟨b, hblow, hb⟩ := exists_hexValue? (digitValue?_of_digitAt hlow)
      obtain ⟨digits, hdigits, hspells⟩ := ih hrest
      refine ⟨a :: b :: digits, ?_, .cons ha hb hspells⟩
      rw [List.map_cons, List.map_cons, hahigh, hblow, hdigits]

/-- A text is read if its characters are a spelling, and then as what they spell. -/
theorem decode_eq_ok_iff :
    decode text = .ok bytes ↔
      ∃ digits, text = digits.map (fun c => UInt8.ofNat c.toNat) ∧ Spells digits bytes := by
  constructor
  · intro hread
    unfold decode at hread
    split at hread
    · cases hread
    · exact exists_spells_of_decodePairs hread
  · rintro ⟨digits, rfl, hspells⟩
    exact hspells.decode

/-- Hexadecimal digits in pairs are a spelling of something. -/
theorem exists_spells {count : Nat} (hdigits : Json.HexDigits digits)
    (hlength : digits.length = 2 * count) : ∃ bytes, bytes.length = count ∧ Spells digits bytes := by
  induction count generalizing digits with
  | zero =>
      obtain rfl := List.eq_nil_of_length_eq_zero hlength
      exact ⟨[], rfl, .nil⟩
  | succ count ih =>
      match digits, hlength with
      | a :: b :: rest, hlength =>
        simp only [Json.HexDigits, List.forall_mem_cons] at hdigits
        obtain ⟨ha, hb, hrest⟩ := hdigits
        obtain ⟨high, ha⟩ := Option.isSome_iff_exists.mp ha
        obtain ⟨low, hb⟩ := Option.isSome_iff_exists.mp hb
        simp only [List.length_cons] at hlength
        obtain ⟨bytes, hcount, hspells⟩ := ih hrest (by omega)
        exact ⟨_ :: bytes, by rw [List.length_cons, hcount], .cons ha hb hspells⟩

/-! ## Marks -/

/-- A number of marks. -/
def marks (count : Nat) : List Char := (List.replicate count ['0', 'x']).flatten

/-- The marks as bytes. -/
def markBytes (count : Nat) : Bytes := (List.replicate count [48, 120]).flatten

theorem map_marks (count : Nat) :
    (marks count).map (fun c => UInt8.ofNat c.toNat) = markBytes count := by
  rw [marks, List.map_flatten, List.map_replicate]
  rfl

theorem marks_ascii (count : Nat) : ∀ c ∈ marks count, c.toNat < 128 := by
  intro c hc
  obtain ⟨mark, hmark, hc⟩ := List.mem_flatten.mp hc
  rw [(List.mem_replicate.mp hmark).2, List.mem_cons, List.mem_singleton] at hc
  rcases hc with rfl | rfl
  · decide
  · decide

/-- A reader that drops as many marks as are allowed, and of a text that holds no other mark
nothing else. -/
structure DropsMarks (drop : Bytes → Bytes) (allowed : Nat → Prop) : Prop where
  cut : ∀ text, ∃ count, allowed count ∧ text = markBytes count ++ drop text
  rest : ∀ count text, allowed count → 120 ∉ text → drop (markBytes count ++ text) = text

theorem dropsMarks_unmarked : DropsMarks unmarked fun _ => True where
  cut text := by
    fun_induction unmarked text with
    | case1 rest ih =>
        obtain ⟨count, -, hcut⟩ := ih
        refine ⟨count + 1, trivial, ?_⟩
        rw [markBytes, List.replicate_succ, List.flatten_cons, List.append_assoc]
        exact congrArg ([48, 120] ++ ·) hcut
    | case2 text hmark => exact ⟨0, trivial, rfl⟩
  rest count text _ htext := by
    induction count with
    | zero => exact unmarked_of_not_mem htext
    | succ count ih =>
        rw [markBytes, List.replicate_succ, List.flatten_cons, List.append_assoc]
        exact ih

theorem dropsMarks_unmarkedOnce : DropsMarks unmarkedOnce (· ≤ 1) where
  cut text := by
    unfold unmarkedOnce
    split
    · exact ⟨1, Nat.le_refl 1, rfl⟩
    · exact ⟨0, Nat.zero_le 1, rfl⟩
  rest count text hcount htext := by
    match count, hcount with
    | 0, _ => exact unmarkedOnce_of_not_mem htext
    | 1, _ => rfl

/-- After the marks that are allowed a reader takes the spellings and nothing else. -/
theorem DropsMarks.decode_eq_ok_iff {drop : Bytes → Bytes} {allowed : Nat → Prop}
    (hdrop : DropsMarks drop allowed) {t : String} :
    decode (drop (Bytes.ofText t)) = .ok bytes ↔
      ∃ count, allowed count ∧ ∃ digits, t = String.ofList (marks count ++ digits) ∧
        Spells digits bytes := by
  have hbytes {count : Nat} {digits : List Char} (hspells : Spells digits bytes) :
      Bytes.ofText (String.ofList (marks count ++ digits)) =
        markBytes count ++ digits.map fun c => UInt8.ofNat c.toNat := by
    rw [Bytes.ofText_ofList, List.map_append, map_marks]
    intro c hc
    rcases List.mem_append.mp hc with hc | hc
    · exact marks_ascii count c hc
    · exact (hspells.marked c (by simp [hc])).1
  constructor
  · intro hread
    obtain ⟨digits, htext, hspells⟩ := Hex.decode_eq_ok_iff.mp hread
    obtain ⟨count, hallowed, hcut⟩ := hdrop.cut (Bytes.ofText t)
    refine ⟨count, hallowed, digits, ?_, hspells⟩
    rw [htext, ← hbytes hspells] at hcut
    exact Bytes.ofText_inj.mp hcut
  · rintro ⟨count, hallowed, digits, rfl, hspells⟩
    rw [hbytes hspells, hdrop.rest count _ hallowed hspells.not_mem_mark]
    exact hspells.decode

end Hex

/-! ## Byte strings of a fixed length -/

namespace Octets

variable {kind : OctetKind}

theorem toBytes_ofLowOrder {bytes : Bytes} (hlength : bytes.length = kind.size) :
    (ofLowOrder kind bytes).toBytes = bytes := by
  have hnumber : (ofLowOrder kind bytes).number.toNat = Bytes.ofBigEndian bytes := by
    refine Nat.mod_eq_of_lt ?_
    rw [← hlength]
    exact Bytes.ofBigEndian_lt bytes
  rw [toBytes, hnumber, ← hlength, Bytes.bigEndian_ofBigEndian]

/-- The bytes of a value are read as the value, and no others are. -/
theorem ofBytes?_eq_some_iff {bytes : Bytes} {x : Octets kind} :
    ofBytes? kind bytes = some x ↔ bytes = x.toBytes := by
  refine ⟨fun hread => ?_, fun hbytes => hbytes ▸ ofBytes?_toBytes x⟩
  unfold ofBytes? at hread
  split at hread
  · rename_i hlength
    rw [← Option.some.inj hread, toBytes_ofLowOrder hlength]
  · cases hread

end Octets

/-- A text is read as a byte string of a fixed length where it is read as the bytes of one. -/
theorem Json.octetsOfText_eq_ok_iff {kind : OctetKind} {t : String} {x : Octets kind} :
    octetsOfText kind t = .ok x ↔ Hex.decodeMarked t = .ok x.toBytes := by
  have hok (bytes : Bytes) :
      (Except.ok bytes : Except Hex.Fault Bytes).mapError Fault.hex = .ok bytes := rfl
  have herror (fault : Hex.Fault) :
      (Except.error fault : Except Hex.Fault Bytes).mapError Fault.hex = .error (.hex fault) := rfl
  unfold octetsOfText
  cases Hex.decodeMarked t with
  | error fault => simp only [herror, bind, Except.bind, reduceCtorEq]
  | ok bytes =>
      rw [Except.ok.injEq, ← Octets.ofBytes?_eq_some_iff]
      simp only [hok, bind, Except.bind]
      cases Octets.ofBytes? kind bytes with
      | none => simp only [reduceCtorEq]
      | some y => simp only [pure, Except.pure, Except.ok.injEq, Option.some.injEq]

/-- A string is read as a byte string if its text is. -/
theorem Json.ofJson_string {kind : OctetKind} (harray : isArray kind = false) (t : String) :
    (ofJson (string t) : Except Fault (Octets kind)) = octetsOfText kind t := by
  simp only [Codec.ofJson, harray, Bool.false_eq_true, if_false]
  rfl

/-! ## Addresses -/

namespace Address

/-- The reader of addresses takes what that of strings takes, and differs in the wording of faults
alone. -/
theorem ofHex_eq_ok_iff {t : String} {a : Address} :
    ofHex t = .ok a ↔ Json.octetsOfText .address t = .ok a := by
  rw [Json.octetsOfText_eq_ok_iff]
  unfold ofHex
  cases Hex.decodeMarked t with
  | error fault => simp only [bind, Except.bind, reduceCtorEq]
  | ok bytes =>
      rw [Except.ok.injEq, ← Octets.ofBytes?_eq_some_iff]
      simp only [bind, Except.bind]
      cases Octets.ofBytes? .address bytes with
      | none => simp only [reduceCtorEq]
      | some b => simp only [pure, Except.pure, Except.ok.injEq, Option.some.injEq]

/-- The address in a byte argument, if the argument has the right length. -/
def ofArgument? (field t : String) : Option Address :=
  match Argument.bytes field t with
  | .ok bytes => Octets.ofBytes? .address bytes
  | .error _ => none

theorem ofArgument?_eq_some_iff {field t : String} {a : Address} :
    ofArgument? field t = some a ↔
      Hex.decode (Hex.unmarkedOnce (Bytes.ofText (Text.trim t))) = .ok a.toBytes := by
  rw [ofArgument?, Argument.bytes]
  cases Hex.decode (Hex.unmarkedOnce (Bytes.ofText (Text.trim t))) with
  | error fault =>
      change (none : Option Address) = some a ↔ _
      simp only [reduceCtorEq]
  | ok bytes =>
      rw [Except.ok.injEq, ← Octets.ofBytes?_eq_some_iff]
      rfl

/-- A text is an address in hexadecimal digits of either case after a number of marks. -/
def SpelledAfter (count : Nat) (t : String) (a : Address) : Prop :=
  ∃ digits, t = String.ofList (Hex.marks count ++ digits) ∧ Hex.Spells digits a.toBytes

/-- The digits of addresses are forty. -/
theorem exists_spelledAfter_iff {count : Nat} {t : String} :
    (∃ a, SpelledAfter count t a) ↔
      ∃ digits, t = String.ofList (Hex.marks count ++ digits) ∧ digits.length = 40 ∧
        Json.HexDigits digits := by
  constructor
  · rintro ⟨a, digits, htext, hspells⟩
    refine ⟨digits, htext, ?_, hspells.hexDigits⟩
    rw [hspells.length_eq, Octets.length_toBytes]
    rfl
  · rintro ⟨digits, htext, hlength, hdigits⟩
    have hsize : digits.length = 2 * OctetKind.address.size := hlength
    obtain ⟨bytes, hcount, hspells⟩ := Hex.exists_spells hdigits hsize
    refine ⟨Octets.ofLowOrder .address bytes, digits, htext, ?_⟩
    rwa [Octets.toBytes_ofLowOrder hcount]

/-- The reader of addresses and that of JSON strings take an address after any number of marks, that
of byte arguments after at most one; all take the same forty digits for it. -/
theorem readers_accept {t : String} (htrim : Text.trim t = t) (field : String) (a : Address) :
    (ofHex t = .ok a ↔ ∃ count, SpelledAfter count t a) ∧
      (Json.ofJson (Json.string t) = .ok a ↔ ∃ count, SpelledAfter count t a) ∧
      (ofArgument? field t = some a ↔ ∃ count, count ≤ 1 ∧ SpelledAfter count t a) ∧
      ∀ count, (∃ b, SpelledAfter count t b) ↔
        ∃ digits, t = String.ofList (Hex.marks count ++ digits) ∧ digits.length = 40 ∧
          Json.HexDigits digits := by
  have hstring : Json.octetsOfText .address t = .ok a ↔ ∃ count, SpelledAfter count t a :=
    (Json.octetsOfText_eq_ok_iff.trans Hex.dropsMarks_unmarked.decode_eq_ok_iff).trans
      (by simp only [true_and, SpelledAfter])
  refine ⟨ofHex_eq_ok_iff.trans hstring, ?_, ?_, fun _ => exists_spelledAfter_iff⟩
  · rw [Json.ofJson_string rfl]
    exact hstring
  · rw [ofArgument?_eq_some_iff, htrim]
    exact Hex.dropsMarks_unmarkedOnce.decode_eq_ok_iff

/-- The address of twenty bytes of one value. -/
def repeated (byte : UInt8) : Address := Octets.ofLowOrder .address (List.replicate 20 byte)

/-- Digits of both cases after a number of marks. -/
def mixedCase (count : Nat) : String :=
  String.ofList (Hex.marks count ++ (List.replicate 20 ['a', 'B']).flatten)

theorem spelledAfter_mixedCase (count : Nat) :
    SpelledAfter count (mixedCase count) (repeated 0xab) := by
  refine ⟨_, rfl, ?_⟩
  rw [repeated, Octets.toBytes_ofLowOrder rfl]
  exact Hex.spells_replicate (a := 'a') (b := 'B') rfl rfl 20

theorem readers_accept_mixedCase :
    ofHex (mixedCase 1) = .ok (repeated 0xab) ∧
      Json.ofJson (Json.string (mixedCase 1)) = .ok (repeated 0xab) ∧
      ofArgument? "--from" (mixedCase 1) = some (repeated 0xab) := by
  have htrim : Text.trim (mixedCase 1) = mixedCase 1 := by decide +kernel
  obtain ⟨hhex, hjson, hargument, -⟩ := readers_accept htrim "--from" (repeated 0xab)
  have hspelled := spelledAfter_mixedCase 1
  exact ⟨hhex.mpr ⟨1, hspelled⟩, hjson.mpr ⟨1, hspelled⟩,
    hargument.mpr ⟨1, Nat.le_refl 1, hspelled⟩⟩

/-- A second mark is dropped by the readers of addresses and strings, and refused in an argument. -/
theorem second_mark_refused :
    Text.trim (mixedCase 2) = mixedCase 2 ∧ ofHex (mixedCase 2) = .ok (repeated 0xab) ∧
      Json.ofJson (Json.string (mixedCase 2)) = .ok (repeated 0xab) ∧
      ofArgument? "--from" (mixedCase 2) = none := by
  have htrim : Text.trim (mixedCase 2) = mixedCase 2 := by decide +kernel
  have hread : Hex.decodeMarked (mixedCase 2) = .ok (repeated 0xab).toBytes :=
    Hex.dropsMarks_unmarked.decode_eq_ok_iff.mpr ⟨2, trivial, spelledAfter_mixedCase 2⟩
  have hstring := Json.octetsOfText_eq_ok_iff.mpr hread
  refine ⟨htrim, ofHex_eq_ok_iff.mpr hstring, ?_, by decide +kernel⟩
  rw [Json.ofJson_string rfl]
  exact hstring

end Address

end LedgerExec
