import Mathlib.Algebra.Ring.Nat
import LedgerExec.LocalCall
set_option autoImplicit false

/-!
# Reasons for reverting

`RevertReason.Carries` says what a byte string that gives a reason looks like: a selector, and
a body in which one word names the place of another, this one is the length of a text, and
the text stands right after it.  The places are arbitrary, so the words and the text may
overlap.  It is stated with numbers of any size and without the reader.

The reader computes with places of the machine's word size.  In a byte string that fits into
such a memory a place beyond the word size is beyond the end as well, so a sum that is refused
loses nothing, and exactly the byte strings that carry a reason are read
(`decode?_exact`).
-/

namespace LedgerExec.RevertReason

variable {data body part : Bytes} {reason : String}

/-! ## The layout -/

/-- A part of a byte string stands at a place of it. -/
def HasAt (data : Bytes) (place : Nat) (part : Bytes) : Prop :=
  ∃ before after, data = before ++ part ++ after ∧ before.length = place

/-- The 32 bytes at a place spell a number, the most significant first. -/
def WordAt (data : Bytes) (place value : Nat) : Prop :=
  ∃ word, HasAt data place word ∧ word.length = 32 ∧ Bytes.ofBigEndian word = value

/-- A text is laid out in a body: the word at its beginning names a place, the word there is the
length of the text, and the text follows. -/
structure Layout (body : Bytes) (offset : Nat) (text : Bytes) : Prop where
  offset_word : WordAt body 0 offset
  length_word : WordAt body offset text.length
  hasAt : HasAt body (offset + 32) text

/-- A byte string carries a reason. -/
def Carries (data : Bytes) (reason : String) : Prop :=
  ∃ body offset, data = selector ++ body ∧ Layout body offset (Bytes.ofText reason)

/-- The plainest byte string that carries a reason: the length stands right after the word that
names its place. -/
def encode (reason : String) : Bytes :=
  selector ++ (Bytes.bigEndian 32 32 ++ Bytes.bigEndian 32 (Bytes.ofText reason).length ++
    Bytes.ofText reason)

theorem HasAt.le_length {place : Nat} (h : HasAt data place part) :
    place + part.length ≤ data.length := by
  obtain ⟨before, after, rfl, rfl⟩ := h
  simp

theorem WordAt.le_length {place value : Nat} (h : WordAt data place value) :
    place + 32 ≤ data.length := by
  obtain ⟨word, hword, hlength, -⟩ := h
  rw [← hlength]
  exact hword.le_length

/-- The number that a word is written for stands where the word does. -/
theorem wordAt_bigEndian {value : Nat} (hvalue : value < 1 <<< 256) (before after : Bytes) :
    WordAt (before ++ Bytes.bigEndian 32 value ++ after) before.length value := by
  refine ⟨Bytes.bigEndian 32 value, ⟨before, after, rfl, rfl⟩, Bytes.length_bigEndian _ _, ?_⟩
  rw [Bytes.ofBigEndian_bigEndian]
  exact Nat.mod_eq_of_lt hvalue

/-- The plain layout, with whatever stands after it. -/
theorem carries_encode {padding : Bytes} (hsize : (encode reason ++ padding).length < 2 ^ 64) :
    Carries (encode reason ++ padding) reason := by
  have hlength : (Bytes.ofText reason).length < 1 <<< 256 := by
    have hwords : (2 : Nat) ^ 64 ≤ 1 <<< 256 := by decide
    simp only [encode, List.length_append] at hsize
    omega
  refine ⟨Bytes.bigEndian 32 32 ++ Bytes.bigEndian 32 (Bytes.ofText reason).length ++
    Bytes.ofText reason ++ padding, 32, ?_, ?_⟩
  · simp only [encode, List.append_assoc]
  · exact
      { offset_word := by
          have hword := wordAt_bigEndian (show 32 < 1 <<< 256 by decide) []
            (Bytes.bigEndian 32 (Bytes.ofText reason).length ++ Bytes.ofText reason ++ padding)
          simpa only [List.nil_append, List.length_nil, List.append_assoc] using hword
        length_word := by
          have hword := wordAt_bigEndian hlength (Bytes.bigEndian 32 32)
            (Bytes.ofText reason ++ padding)
          simpa only [Bytes.length_bigEndian, List.append_assoc] using hword
        hasAt := ⟨_, padding, rfl, by simp⟩ }

/-! ## Reading -/

/-- A slice is what stands between its places. -/
theorem slice?_eq_some_iff {start stop : Count} :
    slice? data start stop = some part ↔
      HasAt data start.toNat part ∧ stop.toNat = start.toNat + part.length := by
  unfold slice?
  constructor
  · intro h
    split at h
    · rename_i hinside
      obtain ⟨horder, hend⟩ := hinside
      rw [Unsigned.le_iff] at horder
      obtain rfl := Option.some.inj h
      refine ⟨⟨data.take start.toNat, data.drop stop.toNat, ?_, ?_⟩, ?_⟩
      · have hfront : (data.take stop.toNat).take start.toNat = data.take start.toNat := by
          rw [List.take_take, Nat.min_eq_left horder]
        rw [← hfront, List.take_append_drop, List.take_append_drop]
      · rw [List.length_take]
        omega
      · rw [List.length_drop, List.length_take]
        omega
    · exact nomatch h
  · rintro ⟨hat, hstop⟩
    have hlength := hat.le_length
    obtain ⟨before, after, rfl, hbefore⟩ := hat
    rw [if_pos ⟨Unsigned.le_iff.mpr (by omega), by omega⟩, hstop, ← hbefore,
      ← List.length_append, List.take_left, List.drop_left]

/-- A word is read if it lies inside and names a place, which every place inside is. -/
theorem word?_eq_some_iff (hsize : data.length < 2 ^ 64) {place value : Count} :
    word? data place = some value ↔ WordAt data place.toNat value.toNat := by
  have hwidth : ((32 : Count)).toNat = 32 := rfl
  simp only [word?, Option.bind_eq_bind, Option.bind_eq_some_iff, Unsigned.add?_eq_some_iff,
    slice?_eq_some_iff, Unsigned.ofNat?_eq_some_iff]
  constructor
  · rintro ⟨stop, hstop, word, ⟨hat, hlength⟩, hvalue⟩
    exact ⟨word, hat, by omega, hvalue.symm⟩
  · intro hword
    have hend := hword.le_length
    obtain ⟨word, hat, hlength, hvalue⟩ := hword
    obtain ⟨stop, hstop⟩ : ∃ stop : Count, stop.toNat = place.toNat + 32 :=
      ⟨⟨place.toNat + 32, by rw [Nat.one_shiftLeft]; omega⟩, rfl⟩
    exact ⟨stop, hstop, word, ⟨hat, by omega⟩, hvalue.symm⟩

/-- What stands at a place of a body that fits is at a place of the machine. -/
theorem exists_count (hsize : body.length < 2 ^ 64) {place : Nat} (hplace : place ≤ body.length) :
    ∃ count : Count, count.toNat = place :=
  ⟨⟨place, by rw [Nat.one_shiftLeft]; omega⟩, rfl⟩

/-- Reading a body, its places first. -/
theorem decode?_selector (body : Bytes) :
    decode? (selector ++ body) = (do
      let offset ← word? body 0
      let length ← word? body offset
      let start ← Unsigned.add? offset 32
      let stop ← Unsigned.add? start length
      Bytes.toText? (← slice? body start stop)) := by
  have hselector : (selector ++ body).take 4 = selector := List.take_left' rfl
  have hbody : (selector ++ body).drop 4 = body := List.drop_left' rfl
  simp only [decode?, hselector, hbody, ne_eq, not_true_eq_false, if_false]

/-- A body is read as the text that is laid out in it. -/
theorem decode?_selector_eq_some_iff (hsize : body.length < 2 ^ 64) :
    decode? (selector ++ body) = some reason ↔
      ∃ offset, Layout body offset (Bytes.ofText reason) := by
  have hwidth : ((32 : Count)).toNat = 32 := rfl
  simp only [decode?_selector, Option.bind_eq_bind, Option.bind_eq_some_iff,
    word?_eq_some_iff hsize, Unsigned.add?_eq_some_iff, slice?_eq_some_iff,
    Bytes.toText?_eq_some_iff]
  constructor
  · rintro ⟨offset, hoffset, length, hlength, start, hstart, stop, hstop, text, ⟨hat, hend⟩, rfl⟩
    rw [hstart, hwidth] at hat
    have htext : length.toNat = (Bytes.ofText reason).length := by omega
    exact ⟨offset.toNat, hoffset, htext ▸ hlength, hat⟩
  · rintro ⟨place, hlayout⟩
    have hbegin := hlayout.length_word.le_length
    have hend := hlayout.hasAt.le_length
    -- everything lies inside, so each number that is computed on the way is a place
    obtain ⟨offset, rfl⟩ := exists_count hsize (show place ≤ body.length by omega)
    obtain ⟨length, hlength⟩ :=
      exists_count hsize (show (Bytes.ofText reason).length ≤ body.length by omega)
    obtain ⟨start, hstart⟩ := exists_count hsize (show offset.toNat + 32 ≤ body.length by omega)
    obtain ⟨stop, hstop⟩ :=
      exists_count hsize (show start.toNat + length.toNat ≤ body.length by omega)
    refine ⟨offset, hlayout.offset_word, length, hlength ▸ hlayout.length_word, start, hstart,
      stop, hstop, Bytes.ofText reason, ⟨?_, by omega⟩, rfl⟩
    rw [hstart]
    exact hlayout.hasAt

/-- Whatever is read begins with the selector. -/
theorem exists_body_of_decode? (h : decode? data = some reason) :
    ∃ body, data = selector ++ body := by
  unfold decode? at h
  split at h
  · exact nomatch h
  · rename_i hselector
    refine ⟨data.drop 4, ?_⟩
    rw [← Decidable.not_not.mp hselector, List.take_append_drop]

/-- Exactly the reasons that a byte string of the machine carries are read from it, no reason is
read from one that carries none, and the plain layout is read with any padding after it. -/
theorem decode?_exact (hsize : data.length < 2 ^ 64) :
    (∀ reason, decode? data = some reason ↔ Carries data reason) ∧
      (decode? data = none ↔ ∀ reason, ¬Carries data reason) ∧
      ∀ reason padding, data = encode reason ++ padding → decode? data = some reason := by
  have hiff (reason : String) : decode? data = some reason ↔ Carries data reason := by
    constructor
    · intro h
      obtain ⟨body, rfl⟩ := exists_body_of_decode? h
      rw [List.length_append] at hsize
      obtain ⟨offset, hlayout⟩ := (decode?_selector_eq_some_iff (by omega)).mp h
      exact ⟨body, offset, rfl, hlayout⟩
    · rintro ⟨body, offset, rfl, hlayout⟩
      rw [List.length_append] at hsize
      exact (decode?_selector_eq_some_iff (by omega)).mpr ⟨offset, hlayout⟩
  refine ⟨hiff, ?_, ?_⟩
  · rw [Option.eq_none_iff_forall_ne_some]
    exact forall_congr' fun reason => not_congr (hiff reason)
  · rintro reason padding rfl
    exact (hiff reason).mpr (carries_encode hsize)

/-- The words and the text may stand in each other: in this body the first word names its own
place, so that it is the length of the text as well. -/
def folded : Bytes := selector ++ (List.replicate 32 0 ++ [0x6f, 0x6b])

/-- From a body that overlaps itself the empty text is read, which stands at the end of the word,
and from the plain layout the text with the padding left out. -/
theorem decode?_exact_folded :
    decode? folded = some "" ∧ Carries folded "" ∧
      decode? (encode "ok" ++ [0, 0, 0]) = some "ok" := by
  have hfolded := decode?_exact (show folded.length < 2 ^ 64 by decide)
  have hpadded := decode?_exact (show (encode "ok" ++ [0, 0, 0]).length < 2 ^ 64 by decide +kernel)
  have hempty : decode? folded = some "" := by decide +kernel
  exact ⟨hempty, (hfolded.1 "").mp hempty, hpadded.2.2 "ok" [0, 0, 0] rfl⟩

end LedgerExec.RevertReason
