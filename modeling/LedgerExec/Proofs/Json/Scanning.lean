import LedgerExec.Json.Render
import LedgerExec.Json.Scan
set_option autoImplicit false

/-!
# Scanning what was written

`Json.Scans t` says that the text of the tree `t` in lines, at any level of
indentation and with anything that may follow a value after it, is scanned as `t`,
and that what follows is left.  In this form it composes: the text of an array or an
object is scanned item by item (`scanItems_pretty`, `scanMembers_pretty`), and each item
leaves the comma or the line that stands after it.

The scanner recurses on a bound.  Twice the length of the text is enough, as every
call is for a character that is left or for the list that begins there.
-/

namespace LedgerExec.Json

/-! ## Digits -/

/-- A text that a number may stand before: it is empty, or goes on with a comma or a new line. -/
inductive Ends : List Char → Prop
  | nil : Ends []
  | comma (rest : List Char) : Ends (',' :: rest)
  | line (rest : List Char) : Ends ('\n' :: rest)

theorem isDigit_eq (c : Char) : isDigit c = c.isDigit := rfl

theorem digitsValue_toDigits (n : Nat) : digitsValue (Nat.toDigits 10 n) = n := by
  have hdigits : digitsValue (Nat.toDigits 10 n) = Nat.ofDigitChars 10 (Nat.toDigits 10 n) 0 := by
    rw [Nat.ofDigitChars_eq_foldl]
    rfl
  rw [hdigits, Nat.ofDigitChars_ten_toDigits]

theorem all_isDigit_toDigits (n : Nat) : ∀ c ∈ Nat.toDigits 10 n, isDigit c = true := by
  intro c hc
  rw [isDigit_eq]
  exact Nat.isDigit_of_mem_toDigits (by decide) (by decide) hc

/-- The spelling of a number is read as the number. -/
theorem natural?_toDigits (n : Nat) : natural? (Nat.toDigits 10 n) = some n := by
  rw [natural?, if_pos (List.all_eq_true.mpr (all_isDigit_toDigits n)), digitsValue_toDigits]

theorem takeWhile_toDigits (n : Nat) {rest : List Char} (hrest : Ends rest) :
    (Nat.toDigits 10 n ++ rest).takeWhile isDigit = Nat.toDigits 10 n := by
  rw [List.takeWhile_append_of_pos (all_isDigit_toDigits n)]
  cases hrest <;> simp [isDigit]

theorem dropWhile_toDigits (n : Nat) {rest : List Char} (hrest : Ends rest) :
    (Nat.toDigits 10 n ++ rest).dropWhile isDigit = rest := by
  rw [List.dropWhile_append_of_pos (all_isDigit_toDigits n)]
  cases hrest <;> simp [isDigit]

/-- Only the spelling of zero begins with a zero. -/
theorem exists_toDigits {n : Nat} (hn : 0 < n) :
    ∃ c digits, Nat.toDigits 10 n = c :: digits ∧ c ≠ '0' := by
  induction n using Nat.strongRecOn with
  | ind n ih =>
      by_cases hsmall : n < 10
      · refine ⟨n.digitChar, [], Nat.toDigits_of_lt_base hsmall, ?_⟩
        have hdigits : ∀ m : Fin 10, 0 < m.val → m.val.digitChar ≠ '0' := by decide
        exact hdigits ⟨n, hsmall⟩ hn
      · obtain ⟨c, digits, hfront, hc⟩ := ih (n / 10) (by omega) (by omega)
        exact ⟨c, digits ++ [Nat.digitChar (n % 10)],
          by rw [Nat.toDigits_of_base_le (by decide) (by omega), hfront, List.cons_append], hc⟩

/-! ## Numbers -/

theorem scanDigits_toDigits (n : Nat) {rest : List Char} (hrest : Ends rest) :
    scanDigits (Nat.toDigits 10 n ++ rest) = some (Nat.toDigits 10 n, rest) := by
  simp only [scanDigits, takeWhile_toDigits n hrest, dropWhile_toDigits n hrest]
  rw [if_neg]
  simp

theorem scanWhole_toDigits (n : Nat) {rest : List Char} (hrest : Ends rest) :
    scanWhole (Nat.toDigits 10 n ++ rest) = some (Nat.toDigits 10 n, rest) := by
  cases Nat.eq_zero_or_pos n with
  | inl hzero =>
      rw [hzero, Nat.toDigits_zero]
      rfl
  | inr hpos =>
      have hscan := scanDigits_toDigits n hrest
      obtain ⟨c, digits, hfront, hc⟩ := exists_toDigits hpos
      rw [hfront, List.cons_append] at hscan ⊢
      rw [scanWhole]
      · exact hscan
      · intro other heq
        exact hc (List.cons.inj heq).1

theorem scanFraction_of_ends {rest : List Char} (hrest : Ends rest) :
    scanFraction rest = some ([], rest) := by
  cases hrest <;> rfl

theorem scanExponent_of_ends {rest : List Char} (hrest : Ends rest) :
    scanExponent rest = some ([], rest) := by
  cases hrest <;> rfl

theorem scanNumber_toDigits (n : Nat) {rest : List Char} (hrest : Ends rest) :
    scanNumber (Nat.toDigits 10 n ++ rest) = some (Nat.toDigits 10 n, rest) := by
  have hunsigned : scanUnsigned (Nat.toDigits 10 n ++ rest) = some (Nat.toDigits 10 n, rest) := by
    simp [scanUnsigned, scanWhole_toDigits n hrest, scanFraction_of_ends hrest,
      scanExponent_of_ends hrest]
  cases hfront : Nat.toDigits 10 n with
  | nil => exact absurd hfront Nat.toDigits_ne_nil
  | cons c digits =>
      have hdigit := all_isDigit_toDigits n c (by rw [hfront]; exact List.mem_cons_self)
      rw [hfront, List.cons_append] at hunsigned
      rw [List.cons_append, scanNumber]
      · exact hunsigned
      · intro other heq
        rw [(List.cons.inj heq).1] at hdigit
        exact absurd hdigit (by decide)

/-! ## Strings -/

/-- A character in a string as the scanner takes it. -/
def pieceOf (c : Char) : Piece :=
  if c.toNat < 32 ∧ c ≠ '\x08' ∧ c ≠ '\t' ∧ c ≠ '\n' ∧ c ≠ '\x0c' ∧ c ≠ '\r' then .unit c.toNat
  else .char c

theorem hexValue?_digit (value : Nat) (h : value < 16) :
    hexValue? (Hex.digit value) = some value := by
  have hdigits : ∀ v : Fin 16, hexValue? (Hex.digit v) = some v.val := by decide
  exact hdigits ⟨value, h⟩

/-- A piece before those that are scanned. -/
def before (piece : Piece) (scanned : Option (List Piece × List Char)) :
    Option (List Piece × List Char) :=
  scanned.map fun (pieces, left) => (piece :: pieces, left)

theorem scanPieces_escaped {letter c : Char} (hletter : escaped? letter = some c)
    (rest : List Char) : scanPieces ('\\' :: letter :: rest) = before (.char c) (scanPieces rest) := by
  rw [scanPieces]
  · rw [hletter]
    cases scanPieces rest <;> rfl
  · intro a b c d rest' heq
    rw [heq] at hletter
    exact nomatch hletter

theorem scanPieces_unit {a b c d : Char} {unit : Nat} (hunit : unitOf? a b c d = some unit)
    (rest : List Char) :
    scanPieces ('\\' :: 'u' :: a :: b :: c :: d :: rest) =
      before (.unit unit) (scanPieces rest) := by
  rw [scanPieces, hunit]
  cases scanPieces rest <;> rfl

theorem scanPieces_plain {c : Char} (hquote : c ≠ '"') (hescape : c ≠ '\\')
    (hprinted : 32 ≤ c.toNat) (rest : List Char) :
    scanPieces (c :: rest) = before (.char c) (scanPieces rest) := by
  rw [scanPieces]
  · rw [if_neg]
    · cases scanPieces rest <;> rfl
    · simp [hescape]
      omega
  · exact hquote
  · intro a b c' d rest' heq
    exact absurd heq hescape
  · intro letter rest' heq
    exact absurd heq hescape

/-- One character is scanned as its piece. -/
theorem scanPieces_renderChar (c : Char) (rest : List Char) :
    scanPieces ((renderChar c).toList ++ rest) = before (pieceOf c) (scanPieces rest) := by
  unfold renderChar
  split
  · exact scanPieces_escaped rfl rest
  · exact scanPieces_escaped rfl rest
  · exact scanPieces_escaped rfl rest
  · exact scanPieces_escaped rfl rest
  · exact scanPieces_escaped rfl rest
  · exact scanPieces_escaped rfl rest
  · exact scanPieces_escaped rfl rest
  · rename_i hquote hescape hback htab hline hfeed hreturn
    split
    · rename_i hcontrol
      have hhigh := hexValue?_digit (c.toNat / 16) (by omega)
      have hlow := hexValue?_digit (c.toNat % 16) (by omega)
      have hunit : unitOf? '0' '0' (Hex.digit (c.toNat / 16)) (Hex.digit (c.toNat % 16)) =
          some c.toNat := by
        have hzero : hexValue? '0' = some 0 := by decide
        simp only [unitOf?, hzero, hhigh, hlow, Option.bind_eq_bind, Option.bind_some]
        congr 1
        omega
      have hpiece : pieceOf c = .unit c.toNat :=
        if_pos ⟨hcontrol, hback, htab, hline, hfeed, hreturn⟩
      rw [hpiece, String.toList_append, String.toList_ofList, String.toList_ofList]
      exact scanPieces_unit hunit rest
    · rename_i hprinted
      have hpiece : pieceOf c = .char c := if_neg fun hcontrol => hprinted hcontrol.1
      rw [hpiece, String.toList_singleton]
      exact scanPieces_plain hquote hescape (Nat.le_of_not_lt hprinted) rest

/-- The text of a string between its quotes. -/
theorem toList_renderString (s : String) :
    (renderString s).toList = '"' :: (s.toList.flatMap fun c => (renderChar c).toList) ++ ['"'] := by
  have hbody (acc : String) (chars : List Char) :
      (chars.foldl (fun acc c => acc ++ renderChar c) acc).toList =
        acc.toList ++ chars.flatMap fun c => (renderChar c).toList := by
    induction chars generalizing acc with
    | nil => simp
    | cons c chars ih => rw [List.foldl_cons, ih, String.toList_append, List.append_assoc,
        List.flatMap_cons]
  rw [renderString, String.foldl_eq_foldl_toList, String.toList_append, String.toList_append, hbody]
  rfl

theorem scanPieces_flatMap (chars rest : List Char) :
    scanPieces ((chars.flatMap fun c => (renderChar c).toList) ++ '"' :: rest) =
      some (chars.map pieceOf, rest) := by
  induction chars with
  | nil => rfl
  | cons c chars ih =>
      rw [List.flatMap_cons, List.append_assoc, scanPieces_renderChar, ih]
      rfl

/-- A unit below the surrogates is its character. -/
theorem joinPieces_unit {value : Nat} (hvalue : value < 0xD800) (rest : List Piece) :
    joinPieces (.unit value :: rest) = (joinPieces rest).map (Char.ofNat value :: ·) := by
  have hlow : ¬(0xD800 ≤ value ∧ value < 0xDC00) := by omega
  have hhigh : ¬(0xDC00 ≤ value ∧ value < 0xE000) := by omega
  have hboth : ¬(0xD800 ≤ value ∧ value < 0xE000) := by omega
  cases rest with
  | nil => simp only [joinPieces, if_neg hboth]
  | cons piece rest =>
      cases piece with
      | char c => simp only [joinPieces, if_neg hboth]
      | unit low => simp only [joinPieces, if_neg hlow, if_neg hhigh]

theorem joinPieces_pieceOf (c : Char) (rest : List Piece) :
    joinPieces (pieceOf c :: rest) = (joinPieces rest).map (c :: ·) := by
  unfold pieceOf
  split
  · rename_i hcontrol
    rw [joinPieces_unit (by omega), Char.ofNat_toNat]
  · rw [joinPieces]

theorem joinPieces_map_pieceOf (chars : List Char) : joinPieces (chars.map pieceOf) = some chars := by
  induction chars with
  | nil => rfl
  | cons c chars ih =>
      rw [List.map_cons, joinPieces_pieceOf, ih]
      rfl

/-- A string is scanned as itself. -/
theorem scanString_flatMap (s : String) (rest : List Char) :
    scanString ((s.toList.flatMap fun c => (renderChar c).toList) ++ '"' :: rest) =
      some (some s, rest) := by
  rw [scanString, scanPieces_flatMap]
  simp [joinPieces_map_pieceOf]

/-! ## Blanks -/

/-- The text has no blanks before it. -/
theorem skipBlank_of_mark {c : Char} (hc : isBlank c = false) (rest : List Char) :
    skipBlank (c :: rest) = c :: rest := by
  rw [skipBlank, List.dropWhile_cons_of_neg (by simp [hc])]

theorem toList_newLine (level : Nat) :
    (newLine level).toList = '\n' :: List.replicate (2 * level) ' ' := by
  rw [newLine, String.toList_append, String.toList_ofList, String.toList_ofList]
  rfl

/-- A new line is skipped with its indentation. -/
theorem skipBlank_newLine (level : Nat) (rest : List Char) :
    skipBlank ((newLine level).toList ++ rest) = skipBlank rest := by
  have hblank : ∀ c ∈ (newLine level).toList, isBlank c = true := by
    intro c hc
    rw [toList_newLine, List.mem_cons, List.mem_replicate] at hc
    rcases hc with rfl | ⟨-, rfl⟩ <;> rfl
  rw [skipBlank, List.dropWhile_append_of_pos hblank, skipBlank]

theorem scanValue_newLine (fuel level : Nat) (rest : List Char) :
    scanValue fuel ((newLine level).toList ++ rest) = scanValue fuel rest := by
  cases fuel with
  | zero => rfl
  | succ fuel => simp only [scanValue, skipBlank_newLine]

theorem ends_newLine (level : Nat) (rest : List Char) : Ends ((newLine level).toList ++ rest) := by
  rw [toList_newLine]
  exact .line _

/-! ## Values -/

/-- The text of a tree is scanned as the tree wherever it stands. -/
structure Scans (t : Json) : Prop where
  /-- the text begins with something that is neither a blank nor the end of an array -/
  opens : ∀ level, ∃ c rest, (prettyAt level t).toList = c :: rest ∧ isBlank c = false ∧ c ≠ ']'
  scan : ∀ level fuel rest, 2 * (prettyAt level t).toList.length ≤ fuel → Ends rest →
    scanValue fuel ((prettyAt level t).toList ++ rest) = (t, some rest)

/-- A leaf that is scanned as itself with any bound but zero. -/
theorem scans_of_text {t : Json} (c : Char) (text : List Char)
    (htext : ∀ level, (prettyAt level t).toList = c :: text) (hblank : isBlank c = false)
    (hopen : c ≠ ']')
    (hscan : ∀ fuel rest, Ends rest → scanValue (fuel + 1) (c :: text ++ rest) = (t, some rest)) :
    Scans t where
  opens level := ⟨c, text, htext level, hblank, hopen⟩
  scan level fuel rest hfuel hrest := by
    rw [htext level] at hfuel ⊢
    cases fuel with
    | zero => exact absurd hfuel (by simp)
    | succ fuel => exact hscan fuel rest hrest

theorem scans_null : Scans .null :=
  scans_of_text 'n' ['u', 'l', 'l'] (fun level => by simp [prettyAt, renderLeaf]) rfl (by decide)
    fun _ _ _ => rfl

theorem scans_bool (b : Bool) : Scans (.bool b) := by
  cases b
  · exact scans_of_text 'f' ['a', 'l', 's', 'e'] (fun level => by simp [prettyAt, renderLeaf]) rfl
      (by decide) fun _ _ _ => rfl
  · exact scans_of_text 't' ['r', 'u', 'e'] (fun level => by simp [prettyAt, renderLeaf]) rfl
      (by decide) fun _ _ _ => rfl

theorem isBlank_of_isDigit {c : Char} (hdigit : isDigit c = true) : isBlank c = false := by
  cases hblank : isBlank c with
  | false => rfl
  | true =>
      simp only [isBlank, Bool.or_eq_true, decide_eq_true_eq] at hblank
      rcases hblank with ((rfl | rfl) | rfl) | rfl <;> exact absurd hdigit (by decide)

theorem scanValue_digit {c : Char} (hdigit : isDigit c = true) (fuel : Nat) (rest : List Char) :
    scanValue (fuel + 1) (c :: rest) =
      match scanNumber (c :: rest) with
      | some (lexeme, left) => (.number lexeme, some left)
      | none => (.broken, none) := by
  have hother {d : Char} {other : List Char} (heq : c :: rest = d :: other) : isDigit d = true :=
    (List.cons.inj heq).1 ▸ hdigit
  rw [scanValue, skipBlank_of_mark (isBlank_of_isDigit hdigit)]
  split
  -- every form but the last begins with a character that is no digit
  all_goals first
    | rfl
    | (rename_i heq; exact absurd (hother heq) (by decide))

theorem scans_nat (n : Nat) : Scans (.nat n) := by
  cases hfront : Nat.toDigits 10 n with
  | nil => exact absurd hfront Nat.toDigits_ne_nil
  | cons c digits =>
      have hdigit := all_isDigit_toDigits n c (by rw [hfront]; exact List.mem_cons_self)
      refine scans_of_text c digits (fun level => ?_) (isBlank_of_isDigit hdigit) ?_
        fun fuel rest hrest => ?_
      · simp [nat, prettyAt, renderLeaf, hfront]
      · rintro rfl
        exact absurd hdigit (by decide)
      · rw [List.cons_append, scanValue_digit hdigit, ← List.cons_append, ← hfront,
          scanNumber_toDigits n hrest]
        rfl

theorem scans_string (s : String) : Scans (string s) := by
  refine scans_of_text '"' ((s.toList.flatMap fun c => (renderChar c).toList) ++ ['"'])
    (fun level => ?_) rfl (by decide) fun fuel rest hrest => ?_
  · simp [string, prettyAt, renderLeaf, toList_renderString]
  · have hscan := scanString_flatMap s rest
    rw [List.cons_append, List.append_assoc, scanValue, skipBlank_of_mark rfl]
    simp only [List.singleton_append, hscan]
    rfl

/-! ## Arrays -/

theorem skipBlank_skipBlank (input : List Char) : skipBlank (skipBlank input) = skipBlank input := by
  induction input with
  | nil => rfl
  | cons c rest ih =>
      cases hc : isBlank c with
      | false => rw [skipBlank_of_mark hc, skipBlank_of_mark hc]
      | true =>
          have hskip : skipBlank (c :: rest) = skipBlank rest := by
            rw [skipBlank, List.dropWhile_cons_of_pos hc, skipBlank]
          rw [hskip, ih]

theorem scanValue_skipBlank (fuel : Nat) (input : List Char) :
    scanValue fuel (skipBlank input) = scanValue fuel input := by
  cases fuel with
  | zero => rfl
  | succ fuel => simp only [scanValue, skipBlank_skipBlank]

theorem scanItems_skipBlank (fuel : Nat) (input : List Char) :
    scanItems fuel (skipBlank input) = scanItems fuel input := by
  cases fuel with
  | zero => rfl
  | succ fuel => simp only [scanItems, scanValue_skipBlank]

theorem scanMembers_skipBlank (fuel : Nat) (input : List Char) :
    scanMembers fuel (skipBlank input) = scanMembers fuel input := by
  cases fuel with
  | zero => rfl
  | succ fuel => simp only [scanMembers, skipBlank_skipBlank]

theorem toList_prettyItems_singleton (level : Nat) (item : Json) :
    (prettyItems level [item]).toList = (newLine level).toList ++ (prettyAt level item).toList := by
  rw [prettyItems, String.toList_append]

theorem toList_prettyItems_cons (level : Nat) (item next : Json) (others : List Json) :
    (prettyItems level (item :: next :: others)).toList =
      (newLine level).toList ++
        ((prettyAt level item).toList ++ ',' :: (prettyItems level (next :: others)).toList) := by
  rw [prettyItems]
  · simp [String.toList_append]
  · exact fun h => nomatch h

/-- The text of the items of an array, before the line that ends it. -/
theorem scanItems_pretty {items : List Json} (hitems : ∀ item ∈ items, Scans item)
    (hsome : items ≠ []) (level below fuel : Nat) (rest : List Char)
    (hfuel : 2 * (prettyItems level items).toList.length ≤ fuel) :
    scanItems fuel
        ((prettyItems level items).toList ++ ((newLine below).toList ++ ']' :: rest)) =
      (items, some rest) := by
  -- an item takes one from the bound, which its line makes up for
  have hline : (newLine level).toList.length = 2 * level + 1 := by
    rw [toList_newLine, List.length_cons, List.length_replicate]
  induction items generalizing fuel with
  | nil => exact absurd rfl hsome
  | cons item others ih =>
      have hitem := (hitems item List.mem_cons_self).scan level
      cases others with
      | nil =>
          rw [toList_prettyItems_singleton] at hfuel ⊢
          rw [List.length_append] at hfuel
          obtain ⟨fuel, rfl⟩ : ∃ n, fuel = n + 1 := ⟨fuel - 1, by omega⟩
          rw [List.append_assoc, scanItems, scanValue_newLine,
            hitem fuel _ (by omega) (ends_newLine below _)]
          simp only [skipBlank_newLine, skipBlank_of_mark (c := ']') rfl]
      | cons next others =>
          have hothers := fun fuel => ih (fun item hitem => hitems item (List.mem_cons_of_mem _ hitem))
            (List.cons_ne_nil next others) fuel
          rw [toList_prettyItems_cons] at hfuel ⊢
          rw [List.length_append, List.length_append, List.length_cons] at hfuel
          obtain ⟨fuel, rfl⟩ : ∃ n, fuel = n + 1 := ⟨fuel - 1, by omega⟩
          rw [List.append_assoc, List.append_assoc, List.cons_append, scanItems,
            scanValue_newLine, hitem fuel _ (by omega) (.comma _)]
          simp only [skipBlank_of_mark (c := ',') rfl, hothers fuel (by omega)]

/-- The text of the items of an array begins with its first item. -/
theorem opens_prettyItems {items : List Json} (hitems : ∀ item ∈ items, Scans item)
    (hsome : items ≠ []) (level : Nat) :
    ∃ c rest, (∀ after, skipBlank ((prettyItems level items).toList ++ after) =
      c :: rest ++ after) ∧ c ≠ ']' := by
  cases items with
  | nil => exact absurd rfl hsome
  | cons item others =>
      obtain ⟨c, text, htext, hblank, hopen⟩ := (hitems item List.mem_cons_self).opens level
      cases others with
      | nil =>
          refine ⟨c, text, fun after => ?_, hopen⟩
          rw [toList_prettyItems_singleton, List.append_assoc, skipBlank_newLine, htext,
            List.cons_append, skipBlank_of_mark hblank]
      | cons next others =>
          refine ⟨c, text ++ ',' :: (prettyItems level (next :: others)).toList, fun after => ?_,
            hopen⟩
          rw [toList_prettyItems_cons, List.append_assoc, skipBlank_newLine, htext,
            List.cons_append, List.cons_append, skipBlank_of_mark hblank]

theorem scans_array {items : List Json} (hitems : ∀ item ∈ items, Scans item) :
    Scans (.array items) := by
  cases items with
  | nil =>
      exact scans_of_text '[' [']'] (fun level => by simp [prettyAt]) rfl (by decide)
        fun _ _ _ => rfl
  | cons item others =>
      have htext (level : Nat) : (prettyAt level (.array (item :: others))).toList =
          '[' :: ((prettyItems (level + 1) (item :: others)).toList ++
            ((newLine level).toList ++ [']'])) := by
        rw [prettyAt]
        · simp [String.toList_append]
        · exact fun h => nomatch h
      refine ⟨fun level => ⟨'[', _, htext level, rfl, by decide⟩,
        fun level fuel rest hfuel hrest => ?_⟩
      rw [htext] at hfuel ⊢
      rw [List.length_cons, List.length_append] at hfuel
      obtain ⟨fuel, rfl⟩ : ∃ n, fuel = n + 1 := ⟨fuel - 1, by omega⟩
      have hscan := scanItems_pretty hitems (List.cons_ne_nil item others) (level + 1) level fuel
        rest (by omega)
      obtain ⟨c, text, hskip, hopen⟩ :=
        opens_prettyItems hitems (List.cons_ne_nil item others) (level + 1)
      rw [← scanItems_skipBlank, hskip] at hscan
      rw [List.cons_append, List.append_assoc, List.append_assoc, List.singleton_append, scanValue,
        skipBlank_of_mark rfl]
      simp only [hskip, List.cons_append] at hscan ⊢
      split
      · rename_i heq
        exact absurd (List.cons.inj heq).1 hopen
      · rw [hscan]

/-! ## Objects -/

/-- The members of a record as an object has them. -/
def named (members : List (String × Json)) : List (Option String × Json) :=
  members.map fun member => (some member.1, member.2)

theorem record_eq (members : List (String × Json)) : record members = .object (named members) := rfl

/-- The text of a member, from its line on. -/
def memberText (level : Nat) (member : String × Json) : List Char :=
  (newLine level).toList ++
    '"' :: ((member.1.toList.flatMap fun c => (renderChar c).toList) ++
      '"' :: ':' :: ' ' :: (prettyAt level member.2).toList)

theorem toList_prettyMembers_singleton (level : Nat) (member : String × Json) :
    (prettyMembers level (named [member])).toList = memberText level member := by
  rw [named, List.map_cons, List.map_nil, prettyMembers]
  simp [String.toList_append, toList_renderString, memberText]

theorem toList_prettyMembers_cons (level : Nat) (member next : String × Json)
    (others : List (String × Json)) :
    (prettyMembers level (named (member :: next :: others))).toList =
      memberText level member ++ ',' :: (prettyMembers level (named (next :: others))).toList := by
  rw [named, List.map_cons, List.map_cons, prettyMembers]
  · simp [String.toList_append, toList_renderString, memberText, named]
  · exact fun h => nomatch h

/-- What becomes of a member and of the text after its value. -/
def afterMember (fuel : Nat) (member : Option String × Json) :
    List Char → List (Option String × Json) × Option (List Char)
  | '}' :: left => ([member], some left)
  | ',' :: input => (member :: (scanMembers fuel input).1, (scanMembers fuel input).2)
  | _ => ([member, (none, .broken)], none)

/-- A member is scanned up to what follows its value. -/
theorem scanMembers_memberText {member : String × Json} (hvalue : Scans member.2)
    (level fuel : Nat) {rest : List Char} (hrest : Ends rest)
    (hfuel : 2 * (memberText level member).length ≤ fuel + 1) :
    scanMembers (fuel + 1) (memberText level member ++ rest) =
      afterMember fuel (some member.1, member.2) (skipBlank rest) := by
  have hspace (fuel : Nat) (input : List Char) :
      scanValue fuel (' ' :: input) = scanValue fuel input := by
    cases fuel with
    | zero => rfl
    | succ fuel => rfl
  have hlength : 2 * (prettyAt level member.2).toList.length ≤ fuel := by
    simp only [memberText, List.length_append, List.length_cons] at hfuel
    omega
  have hscanned := hvalue.scan level fuel rest hlength hrest
  rw [memberText, List.append_assoc, List.cons_append, List.append_assoc, List.cons_append,
    List.cons_append, List.cons_append, scanMembers, skipBlank_newLine, skipBlank_of_mark rfl]
  simp only [scanString_flatMap, skipBlank_of_mark (c := ':') rfl, hspace, hscanned]
  rfl

/-- The text of the members of a record, before the line that ends it. -/
theorem scanMembers_pretty {members : List (String × Json)}
    (hmembers : ∀ member ∈ members, Scans member.2) (hsome : members ≠ [])
    (level below fuel : Nat) (rest : List Char)
    (hfuel : 2 * (prettyMembers level (named members)).toList.length ≤ fuel) :
    scanMembers fuel
        ((prettyMembers level (named members)).toList ++ ((newLine below).toList ++ '}' :: rest)) =
      (named members, some rest) := by
  induction members generalizing fuel with
  | nil => exact absurd rfl hsome
  | cons member others ih =>
      have hvalue := hmembers member List.mem_cons_self
      have hpos : 0 < (memberText level member).length := by
        rw [memberText, List.length_append, List.length_cons]
        omega
      cases others with
      | nil =>
          rw [toList_prettyMembers_singleton] at hfuel ⊢
          obtain ⟨fuel, rfl⟩ : ∃ n, fuel = n + 1 := ⟨fuel - 1, by omega⟩
          rw [scanMembers_memberText hvalue level fuel (ends_newLine below _) hfuel,
            skipBlank_newLine, skipBlank_of_mark rfl]
          rfl
      | cons next others =>
          have hothers := fun fuel =>
            ih (fun member hmember => hmembers member (List.mem_cons_of_mem _ hmember))
              (List.cons_ne_nil next others) fuel
          rw [toList_prettyMembers_cons] at hfuel ⊢
          rw [List.length_append, List.length_cons] at hfuel
          obtain ⟨fuel, rfl⟩ : ∃ n, fuel = n + 1 := ⟨fuel - 1, by omega⟩
          rw [List.append_assoc, List.cons_append,
            scanMembers_memberText hvalue level fuel (.comma _) (by omega), skipBlank_of_mark rfl]
          simp only [afterMember, hothers fuel (by omega)]
          rfl

/-- The text of the members of a record begins with a quote. -/
theorem opens_prettyMembers {members : List (String × Json)} (hsome : members ≠ [])
    (level : Nat) (after : List Char) :
    ∃ rest, skipBlank ((prettyMembers level (named members)).toList ++ after) = '"' :: rest := by
  cases members with
  | nil => exact absurd rfl hsome
  | cons member others =>
      cases others with
      | nil =>
          rw [toList_prettyMembers_singleton, memberText, List.append_assoc, skipBlank_newLine]
          exact ⟨_, skipBlank_of_mark rfl _⟩
      | cons next others =>
          rw [toList_prettyMembers_cons, memberText, List.append_assoc, List.append_assoc,
            skipBlank_newLine]
          exact ⟨_, skipBlank_of_mark rfl _⟩

/-- The text of a record with members stands between braces. -/
theorem toList_prettyAt_record {members : List (String × Json)} (hsome : members ≠ [])
    (level : Nat) :
    (prettyAt level (record members)).toList =
      '{' :: ((prettyMembers (level + 1) (named members)).toList ++
        ((newLine level).toList ++ ['}'])) := by
  rw [record_eq, prettyAt]
  · simp [String.toList_append]
  · intro hnone
    exact hsome (List.map_eq_nil_iff.mp hnone)

theorem scans_record {members : List (String × Json)}
    (hmembers : ∀ member ∈ members, Scans member.2) : Scans (record members) := by
  cases members with
  | nil =>
      exact scans_of_text '{' ['}'] (fun level => by simp [record, prettyAt]) rfl (by decide)
        fun _ _ _ => rfl
  | cons member others =>
      have htext := toList_prettyAt_record (List.cons_ne_nil member others)
      refine ⟨fun level => ⟨'{', _, htext level, rfl, by decide⟩,
        fun level fuel rest hfuel hrest => ?_⟩
      rw [htext] at hfuel ⊢
      rw [List.length_cons, List.length_append] at hfuel
      obtain ⟨fuel, rfl⟩ : ∃ n, fuel = n + 1 := ⟨fuel - 1, by omega⟩
      have hscan := scanMembers_pretty hmembers (List.cons_ne_nil member others) (level + 1) level
        fuel rest (by omega)
      obtain ⟨text, hskip⟩ := opens_prettyMembers (List.cons_ne_nil member others) (level + 1)
        ((newLine level).toList ++ '}' :: rest)
      rw [← scanMembers_skipBlank, hskip] at hscan
      rw [List.cons_append, List.append_assoc, List.append_assoc, List.singleton_append, scanValue,
        skipBlank_of_mark rfl]
      simp only [hskip]
      change (Json.object (scanMembers fuel ('"' :: text)).1, (scanMembers fuel ('"' :: text)).2) = _
      rw [hscan, record_eq]

/-! ## Whole texts -/

/-- The text of a tree in lines is scanned as the tree, to its end. -/
theorem Scans.scan_pretty {t : Json} (h : Scans t) : Json.scan (pretty t) = (t, true) := by
  have hscanned := h.scan 0 (2 * (pretty t).toList.length + 2) [] (by rw [pretty]; omega) .nil
  rw [List.append_nil] at hscanned
  unfold Json.scan
  rw [pretty] at hscanned ⊢
  simp only [hscanned]
  rfl

end LedgerExec.Json
