import LedgerExec.Wire
set_option autoImplicit false

/-!
# Reading back what was written

`Wire.ReadsBack x` says that the bytes of `x`, whatever follows them, are read as `x`, and
that what follows is left.  In this form it composes: a reader that goes on after a first
value goes on exactly where the bytes of that value end (`ReadsBack.run_bind`), so the
fields of a record are read one after the other, and the entries of a list by induction.

A sequence is read back if its length has a spelling of eight bytes; nothing else can go
wrong.
-/

namespace LedgerExec

namespace Wire

variable {α β : Type}

/-- Reading gives the value and leaves what follows it. -/
def ReadsBack [Wire α] (x : α) : Prop :=
  ∀ rest : Bytes, (Wire.decode (α := α)).run (Wire.encode x ++ rest) = some (x, rest)

section ReadsBack

variable [Wire α] {x y : α}

/-- A reader that goes on after a value goes on where the bytes of the value end. -/
theorem ReadsBack.run_bind (h : ReadsBack x) (next : α → Step β) (rest : Bytes) :
    (Wire.decode >>= next).run (Wire.encode x ++ rest) = (next x).run rest := by
  rw [StateT.run_bind, h rest]
  rfl

theorem ReadsBack.decodeFront? (h : ReadsBack x) (rest : Bytes) :
    decodeFront? (Wire.encode x ++ rest) = some x := by
  rw [Wire.decodeFront?, h rest]
  rfl

/-- Of bytes that begin with a value both the value and the rest are known. -/
theorem ReadsBack.append_inj {more others : Bytes} (hx : ReadsBack x) (hy : ReadsBack y)
    (hbytes : Wire.encode x ++ more = Wire.encode y ++ others) : x = y ∧ more = others := by
  have hread := hx more
  rw [hbytes, hy others, Option.some.injEq, Prod.mk.injEq] at hread
  exact ⟨hread.1.symm, hread.2.symm⟩

/-- Values that are read back have different bytes. -/
theorem ReadsBack.encode_inj (hx : ReadsBack x) (hy : ReadsBack y)
    (hbytes : Wire.encode x = Wire.encode y) : x = y := by
  have hfirst := hx.decodeFront? []
  have hsecond := hy.decodeFront? []
  rw [hbytes] at hfirst
  exact Option.some.inj (hfirst.symm.trans hsecond)

end ReadsBack

/-- What two readers read one after the other, each of them has read. -/
theorem exists_of_run_bind {first : Step α} {next : α → Step β} {bytes : Bytes}
    {result : β × Bytes} (hread : (first >>= next).run bytes = some result) :
    ∃ x more, first.run bytes = some (x, more) ∧ (next x).run more = some result := by
  rw [StateT.run_bind] at hread
  obtain ⟨⟨x, more⟩, hfirst, hnext⟩ := Option.bind_eq_some_iff.mp hread
  exact ⟨x, more, hfirst, hnext⟩

/-! ## Bytes and numbers -/

/-- As many bytes as are asked for are taken off. -/
theorem run_take_bind {bytes : Bytes} {count : Nat} (hlength : bytes.length = count)
    (next : Bytes → Step β) (rest : Bytes) :
    (take count >>= next).run (bytes ++ rest) = (next bytes).run rest := by
  have htake : (take count).run (bytes ++ rest) = some (bytes, rest) := by
    rw [← hlength]
    simp [take, StateT.run]
  rw [StateT.run_bind, htake]
  rfl

/-- A number is read back from as many bytes as it fits into. -/
theorem ofLittleEndian_littleEndian_of_lt {count value : Nat} (hvalue : value < 1 <<< (8 * count)) :
    Bytes.ofLittleEndian (Bytes.littleEndian count value) = value := by
  rw [Bytes.ofLittleEndian_littleEndian, Nat.mod_eq_of_lt hvalue]

theorem lt_of_width (width : Nat) (x : Unsigned width) :
    x.toNat < 1 <<< (8 * byteCount width) := by
  refine Nat.lt_of_lt_of_le x.isLt ?_
  rw [Nat.one_shiftLeft, Nat.one_shiftLeft]
  refine Nat.pow_le_pow_right (by decide) ?_
  unfold byteCount
  omega

theorem readsBack_unsigned {width : Nat} (x : Unsigned width) : ReadsBack x := by
  intro rest
  refine (run_take_bind (Bytes.length_littleEndian _ _) _ _).trans ?_
  simp only [ofLittleEndian_littleEndian_of_lt (lt_of_width width x), Unsigned.ofNat?_toNat]
  rfl

theorem readsBack_byte (x : UInt8) : ReadsBack x := fun _ => rfl

theorem readsBack_bool (x : Bool) : ReadsBack x := by
  intro rest
  cases x <;> rfl

/-- A length that has a spelling of eight bytes. -/
theorem run_decodeLength_bind {count : Nat} (hcount : count < 1 <<< 64) (next : Nat → Step β)
    (rest : Bytes) :
    (decodeLength >>= next).run (encodeLength count ++ rest) = (next count).run rest := by
  have hread : Bytes.ofLittleEndian (Bytes.littleEndian 8 count) = count :=
    ofLittleEndian_littleEndian_of_lt hcount
  rw [decodeLength, bind_assoc]
  refine (run_take_bind (Bytes.length_littleEndian _ _) _ _).trans ?_
  rw [pure_bind, hread]

theorem run_decodeCase_bind {index : Nat} (hindex : index < 1 <<< 32) (next : Nat → Step β)
    (rest : Bytes) :
    (decodeCase >>= next).run (encodeCase index ++ rest) = (next index).run rest := by
  have hread : Bytes.ofLittleEndian (Bytes.littleEndian 4 index) = index :=
    ofLittleEndian_littleEndian_of_lt hindex
  rw [decodeCase, bind_assoc]
  refine (run_take_bind (Bytes.length_littleEndian _ _) _ _).trans ?_
  rw [pure_bind, hread]

theorem readsBack_octets {kind : OctetKind} (x : Octets kind) : ReadsBack x := by
  intro rest
  cases hcounted : isCounted kind with
  | true =>
      have hsize : kind.size < 1 <<< 64 := by cases kind <;> decide
      simp only [Wire.encode, Wire.decode, hcounted, if_true, List.append_assoc]
      refine (run_decodeLength_bind hsize _ _).trans ?_
      refine (run_take_bind x.length_toBytes _ _).trans ?_
      simp only [Octets.ofBytes?_toBytes]
      rfl
  | false =>
      simp only [Wire.encode, Wire.decode, hcounted, Bool.false_eq_true, if_false, pure_bind]
      refine (run_take_bind x.length_toBytes _ _).trans ?_
      simp only [Octets.ofBytes?_toBytes]
      rfl

/-- A value that may be missing, with a byte that says whether it is. -/
theorem readsBack_option [Wire α] {x? : Option α} (hvalue : ∀ x, x? = some x → ReadsBack x) :
    ReadsBack x? := by
  intro rest
  cases x? with
  | none => rfl
  | some x =>
      have hread := (hvalue x rfl).run_bind (fun x => (pure (some x) : Step (Option α))) rest
      exact hread

/-! ## Sequences -/

theorem run_decodeMany [Wire α] {xs : List α} (hentries : ∀ x ∈ xs, ReadsBack x) (rest : Bytes) :
    (decodeMany xs.length).run (xs.flatMap Wire.encode ++ rest) = some (xs, rest) := by
  induction xs with
  | nil => rfl
  | cons x xs ih =>
      have hfirst : ReadsBack x := hentries x List.mem_cons_self
      have hrest := ih fun y hy => hentries y (List.mem_cons_of_mem x hy)
      rw [List.flatMap_cons, List.append_assoc]
      refine (hfirst.run_bind _ _).trans ?_
      rw [StateT.run_bind, hrest]
      rfl

/-- A list is read back if its entries are and its length has a spelling. -/
theorem readsBack_list [Wire α] {xs : List α} (hlength : xs.length < 1 <<< 64)
    (hentries : ∀ x ∈ xs, ReadsBack x) : ReadsBack xs := by
  intro rest
  rw [Wire.encode, instList]
  simp only [List.append_assoc]
  exact (run_decodeLength_bind hlength _ _).trans (run_decodeMany hentries rest)

theorem readsBack_bytes {bytes : Bytes} (hlength : bytes.length < 1 <<< 64) : ReadsBack bytes :=
  readsBack_list hlength fun byte _ => readsBack_byte byte

end Wire

end LedgerExec
