import LedgerExec.Account
import LedgerExec.Proofs.Wire.Consensus
set_option autoImplicit false

/-!
# The bytes of accounts

In the layout of an account a missing code or storage root leaves nothing behind, and the
reader takes what comes next in its place.  So an account is read back exactly if it has
both (`Account.read_back_iff_present`).  Without a storage root the one byte that is left is
too short for what it is taken for; without code the storage root is taken for code.

The bytes of different accounts are different all the same, with one exception
(`Account.Mistaken`): a storage root that looks like code of 24 bytes after its length.
-/

namespace LedgerExec.Account

variable {a b : Account}

/-- The length of the code has a spelling. -/
def Fits (a : Account) : Prop := ∀ code, a.code = some code → code.length < 1 <<< 64

/-- What is written between the balance and the last byte. -/
def middle (a : Account) : Bytes := encodePresent a.code ++ encodePresent a.storageRoot

theorem encode_eq (a : Account) :
    Wire.encode a =
      Wire.encode a.nonce ++ (Wire.encode a.balance ++ (a.middle ++ Wire.encode a.isContract)) := by
  simp only [middle, ← List.append_assoc]
  rfl

/-- Reads what stands after the balance. -/
def decodeEnd (nonce : Nonce) (balance : Balance) : Wire.Step Account := do
  let code ← Wire.decode
  let storageRoot ← Wire.decode
  let isContract ← Wire.decode
  return { nonce, balance, code, storageRoot, isContract }

/-- Nonce and balance are read back whatever follows. -/
theorem run_decode (a : Account) (rest : Bytes) :
    (Wire.decode (α := Account)).run (Wire.encode a ++ rest) =
      (decodeEnd a.nonce a.balance).run (a.middle ++ (Wire.encode a.isContract ++ rest)) := by
  rw [encode_eq]
  simp only [List.append_assoc]
  exact ((Wire.readsBack_unsigned a.nonce).run_bind _ _).trans
    ((Wire.readsBack_unsigned a.balance).run_bind _ _)

theorem Fits.readsBack_code (ha : a.Fits) : Wire.ReadsBack a.code :=
  Wire.readsBack_option fun code hcode => Wire.readsBack_bytes (ha code hcode)

theorem readsBack_storageRoot (root : Option Digest) : Wire.ReadsBack root :=
  Wire.readsBack_option fun root _ => Wire.readsBack_octets root

theorem encodePresent_of_isSome {α : Type} [Wire α] {x? : Option α} (hsome : x?.isSome = true) :
    encodePresent x? = Wire.encode x? := by
  obtain ⟨x, rfl⟩ := Option.isSome_iff_exists.mp hsome
  rfl

/-- An account with code and a storage root is read back. -/
theorem Fits.readsBack (ha : a.Fits) (hcode : a.code.isSome = true)
    (hroot : a.storageRoot.isSome = true) : Wire.ReadsBack a := by
  intro rest
  rw [run_decode, middle, encodePresent_of_isSome hcode, encodePresent_of_isSome hroot, decodeEnd]
  simp only [List.append_assoc, ha.readsBack_code.run_bind, (readsBack_storageRoot _).run_bind,
    (Wire.readsBack_bool _).run_bind]
  rfl

/-- Without a storage root the last byte is taken for the beginning of something longer. -/
theorem decodeFront?_of_rootless (ha : a.Fits) (hroot : a.storageRoot = none) :
    (Wire.decodeFront? (Wire.encode a) : Option Account) = none := by
  have hrun := run_decode a []
  rw [List.append_nil, List.append_nil, middle, hroot] at hrun
  rw [Wire.decodeFront?, hrun]
  cases hcode : a.code with
  | none =>
      cases a.isContract <;> rfl
  | some code =>
      have hread := ha.readsBack_code
      rw [hcode] at hread
      simp only [encodePresent, List.append_nil, decodeEnd]
      rw [hread.run_bind]
      cases a.isContract <;> rfl

/-- Where a byte says that a value is there, one is read. -/
theorem isSome_of_run_decode {α : Type} [Wire α] {x? : Option α} {rest more : Bytes}
    (hread : (Wire.decode (α := Option α)).run (1 :: rest) = some (x?, more)) :
    x?.isSome = true := by
  obtain ⟨present, left, hpresent, hvalue⟩ := Wire.exists_of_run_bind hread
  obtain ⟨rfl, rfl⟩ := Prod.mk.inj (Option.some.inj hpresent)
  obtain ⟨x, last, -, hlast⟩ := Wire.exists_of_run_bind hvalue
  obtain ⟨rfl, -⟩ := Prod.mk.inj (Option.some.inj hlast)
  rfl

/-- What is read first after the balance is the code. -/
theorem exists_of_run_decodeEnd {nonce : Nonce} {balance : Balance} {bytes left : Bytes}
    (hread : (decodeEnd nonce balance).run bytes = some (a, left)) :
    ∃ more, (Wire.decode (α := Option Bytes)).run bytes = some (a.code, more) := by
  obtain ⟨code, more, hcode, hread⟩ := Wire.exists_of_run_bind hread
  obtain ⟨root, more', -, hread⟩ := Wire.exists_of_run_bind hread
  obtain ⟨flag, more'', -, hread⟩ := Wire.exists_of_run_bind hread
  obtain ⟨rfl, -⟩ := Prod.mk.inj (Option.some.inj hread)
  exact ⟨more, hcode⟩

/-- Without code the storage root is taken for it. -/
theorem isSome_code_of_codeless (hcode : a.code = none) (hroot : a.storageRoot.isSome = true)
    (hread : Wire.decodeFront? (Wire.encode a) = some b) : b.code.isSome = true := by
  obtain ⟨root, hroot⟩ := Option.isSome_iff_exists.mp hroot
  obtain ⟨⟨found, left⟩, hrun, rfl⟩ := Option.map_eq_some_iff.mp hread
  have hend := run_decode a []
  rw [List.append_nil, List.append_nil, hrun, middle, hcode, hroot] at hend
  obtain ⟨more, hfound⟩ := exists_of_run_decodeEnd hend.symm
  exact isSome_of_run_decode hfound

/-! ## Different accounts with the same bytes -/

/-- The storage root of the first account, which has no code, is written like the code of the
second, which has no storage root; all else is the same. -/
structure Mistaken (a b : Account) : Prop where
  nonce : a.nonce = b.nonce
  balance : a.balance = b.balance
  isContract : a.isContract = b.isContract
  codeless : a.code = none
  rootless : b.storageRoot = none
  alike : ∃ root code, a.storageRoot = some root ∧ b.code = some code ∧ root.toBytes = code.counted

theorem encodePresent_code (code : Bytes) : encodePresent (some code) = 1 :: code.counted :=
  congrArg (1 :: ·) (encode_bytes code)

theorem encodePresent_root (root : Digest) : encodePresent (some root) = 1 :: root.toBytes := rfl

theorem encodePresent_root_inj {root other : Option Digest}
    (hbytes : encodePresent root = encodePresent other) : root = other := by
  cases root with
  | none =>
      cases other with
      | none => rfl
      | some _ => cases hbytes
  | some _ =>
      cases other with
      | none => cases hbytes
      | some _ =>
          rw [encodePresent_root, encodePresent_root] at hbytes
          exact congrArg some (Octets.toBytes_inj.mp (List.cons.inj hbytes).2)

theorem Mistaken.middle_eq (h : a.Mistaken b) : a.middle = b.middle := by
  obtain ⟨root, code, hroot, hcode, hbytes⟩ := h.alike
  rw [middle, middle, h.codeless, h.rootless, hroot, hcode, encodePresent_root, encodePresent_code,
    hbytes]
  exact (List.append_nil _).symm

/-- A storage root can only be taken for code if nothing follows the code. -/
theorem alike_of_middle_eq {code : Bytes} (hcodeless : a.code = none) (hcode : b.code = some code)
    (hmiddle : a.middle = b.middle) :
    b.storageRoot = none ∧ ∃ root, a.storageRoot = some root ∧ root.toBytes = code.counted := by
  rw [middle, middle, hcodeless, hcode, encodePresent_code, encodePresent, List.nil_append]
    at hmiddle
  cases hroot : a.storageRoot with
  | none =>
      rw [hroot] at hmiddle
      cases hmiddle
  | some root =>
      rw [hroot, encodePresent_root, List.cons_append] at hmiddle
      have hbytes := (List.cons.inj hmiddle).2
      have hsize : OctetKind.digest.size = 32 := rfl
      cases hother : b.storageRoot with
      | none =>
          rw [hother, encodePresent, List.append_nil] at hbytes
          exact ⟨rfl, root, rfl, hbytes⟩
      | some other =>
          have hlength := congrArg List.length hbytes
          rw [hother, encodePresent_root, List.length_append, List.length_cons,
            Octets.length_toBytes, Octets.length_toBytes] at hlength
          omega

/-- The middle tells code and storage root apart, but for the one mistake. -/
theorem middle_eq_cases (ha : a.Fits) (hb : b.Fits) (hmiddle : a.middle = b.middle) :
    a.code = b.code ∧ a.storageRoot = b.storageRoot ∨ a.code = none ∧ b.code.isSome = true ∨
      b.code = none ∧ a.code.isSome = true := by
  cases hcode : a.code with
  | none =>
      cases hother : b.code with
      | none =>
          rw [middle, middle, hcode, hother] at hmiddle
          exact .inl ⟨rfl, encodePresent_root_inj hmiddle⟩
      | some _ => exact .inr (.inl ⟨rfl, rfl⟩)
  | some code =>
      cases hother : b.code with
      | none => exact .inr (.inr ⟨rfl, rfl⟩)
      | some other =>
          have hfirst := ha.readsBack_code
          have hsecond := hb.readsBack_code
          rw [middle, middle, hcode, hother] at hmiddle
          rw [hcode] at hfirst
          rw [hother] at hsecond
          obtain ⟨hsame, hroots⟩ := hfirst.append_inj hsecond hmiddle
          exact .inl ⟨hsame, encodePresent_root_inj hroots⟩

theorem encode_eq_iff (ha : a.Fits) (hb : b.Fits) :
    Wire.encode a = Wire.encode b ↔ a = b ∨ a.Mistaken b ∨ b.Mistaken a := by
  constructor
  · intro hbytes
    rw [encode_eq, encode_eq] at hbytes
    obtain ⟨hnonce, hbytes⟩ :=
      (Wire.readsBack_unsigned _).append_inj (Wire.readsBack_unsigned _) hbytes
    obtain ⟨hbalance, hbytes⟩ :=
      (Wire.readsBack_unsigned _).append_inj (Wire.readsBack_unsigned _) hbytes
    obtain ⟨hmiddle, hflag⟩ := List.append_inj' hbytes rfl
    have hflag := (Wire.readsBack_bool _).encode_inj (Wire.readsBack_bool _) hflag
    rcases middle_eq_cases ha hb hmiddle with ⟨hcode, hroot⟩ | ⟨hcodeless, hcode⟩ | ⟨hcodeless, hcode⟩
    · exact .inl (Account.ext hnonce hbalance hcode hroot hflag)
    · obtain ⟨code, hcode⟩ := Option.isSome_iff_exists.mp hcode
      obtain ⟨hrootless, root, hroot, halike⟩ := alike_of_middle_eq hcodeless hcode hmiddle
      exact .inr (.inl ⟨hnonce, hbalance, hflag, hcodeless, hrootless, root, code, hroot, hcode,
        halike⟩)
    · obtain ⟨code, hcode⟩ := Option.isSome_iff_exists.mp hcode
      obtain ⟨hrootless, root, hroot, halike⟩ := alike_of_middle_eq hcodeless hcode hmiddle.symm
      exact .inr (.inr ⟨hnonce.symm, hbalance.symm, hflag.symm, hcodeless, hrootless, root, code,
        hroot, hcode, halike⟩)
  · have hmistaken {a b : Account} (h : a.Mistaken b) : Wire.encode a = Wire.encode b := by
      rw [encode_eq, encode_eq, h.nonce, h.balance, h.isContract, h.middle_eq]
    rintro (rfl | h | h)
    · rfl
    · exact hmistaken h
    · exact (hmistaken h).symm

/-- An account is read back from its bytes exactly if it has code and a storage root.  Without a
storage root nothing is read, without code something else is.  Two accounts have the same bytes
only if one is mistaken for the other. -/
theorem read_back_iff_present (ha : a.Fits) :
    (Wire.decodeFront? (Wire.encode a) = some a ↔
        a.code.isSome = true ∧ a.storageRoot.isSome = true) ∧
      (a.storageRoot = none → (Wire.decodeFront? (Wire.encode a) : Option Account) = none) ∧
      (a.code = none → ∀ b : Account, Wire.decodeFront? (Wire.encode a) = some b →
        b.code.isSome = true) ∧
      ∀ b : Account, b.Fits →
        (Wire.encode a = Wire.encode b ↔ a = b ∨ a.Mistaken b ∨ b.Mistaken a) := by
  have hrootless : a.storageRoot = none →
      (Wire.decodeFront? (Wire.encode a) : Option Account) = none :=
    decodeFront?_of_rootless ha
  have hcodeless (hcode : a.code = none) (b : Account)
      (hread : Wire.decodeFront? (Wire.encode a) = some b) : b.code.isSome = true := by
    refine isSome_code_of_codeless hcode ?_ hread
    rw [Option.isSome_iff_ne_none]
    intro hroot
    rw [hrootless hroot] at hread
    cases hread
  refine ⟨⟨fun hread => ⟨?_, ?_⟩, fun ⟨hcode, hroot⟩ => ?_⟩, hrootless, hcodeless,
    fun b hb => encode_eq_iff ha hb⟩
  · rw [Option.isSome_iff_ne_none]
    intro hcode
    have hsome := hcodeless hcode a hread
    rw [hcode] at hsome
    cases hsome
  · rw [Option.isSome_iff_ne_none]
    intro hroot
    rw [hrootless hroot] at hread
    cases hread
  · have hread := (ha.readsBack hcode hroot).decodeFront? []
    rwa [List.append_nil] at hread

/-- A contract with code and storage. -/
def deployed : Account where
  nonce := 1
  balance := 7
  code := some [1, 2, 3]
  storageRoot := some emptyStorageRoot
  isContract := true

theorem read_back_deployed :
    Wire.decodeFront? (Wire.encode deployed) = some deployed ∧
      Wire.encode deployed ≠ Wire.encode { deployed with nonce := 2 } := by
  have hfits (nonce : Nonce) : Fits { deployed with nonce } := by
    intro code hcode
    obtain rfl := Option.some.inj hcode
    decide
  obtain ⟨hread, -, -, hbytes⟩ := read_back_iff_present (hfits 1)
  refine ⟨hread.mpr ⟨rfl, rfl⟩, fun hsame => ?_⟩
  rcases (hbytes _ (hfits 2)).mp hsame with hequal | hmistaken | hmistaken
  · exact absurd hequal (by decide)
  · exact nomatch hmistaken.codeless
  · exact nomatch hmistaken.codeless

/-- A new account is not read back, a contract that was set up without code is read as another
account, and an account without code has the bytes of one with code. -/
theorem fresh_not_read_back :
    (Wire.decodeFront? (Wire.encode fresh) : Option Account) = none ∧
      Wire.decodeFront? (Wire.encode { deployed with code := none }) =
        some { deployed with code := some [], storageRoot := none, isContract := false } ∧
      ∃ a b : Account, a ≠ b ∧ Wire.encode a = Wire.encode b := by
  let code : Bytes := List.replicate 24 9
  let root : Digest := Octets.ofLowOrder .digest code.counted
  exact ⟨by decide, by decide,
    { storageRoot := some root }, { code := some code }, by decide, by decide +kernel⟩

end LedgerExec.Account
