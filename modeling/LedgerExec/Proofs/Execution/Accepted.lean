import LedgerExec.Proofs.Execution.Settled
set_option autoImplicit false

/-!
# What acceptance says

A transaction on chain is accepted exactly when every check of it succeeds.  Two of
the checks matter to what follows: the block has room for the whole gas limit and
the limit covers the intrinsic cost (`checkGas_eq_ok_iff`), and the nonce is that of
the sender whom the cache names (`nonce_of_accepted`).
-/

namespace LedgerExec

/-- Both steps of a sequence that succeeds succeed. -/
theorem exists_of_bind {ε α β : Type} {first : Except ε α} {second : α → Except ε β} {y : β}
    (h : first >>= second = .ok y) : ∃ x, first = .ok x ∧ second x = .ok y := by
  cases first with
  | error fault => cases h
  | ok x => exact ⟨x, rfl, h⟩

theorem eq_ok_of_mem_toOption {ε α : Type} {result : Except ε α} {x : α}
    (h : x ∈ result.toOption) : result = .ok x := by
  cases result with
  | error fault => exact nomatch h
  | ok y => rw [Option.some.inj h]

namespace Job

variable {j : Job} {outer : View} {senders : SenderCache}

/-- There is room in the block, short of the ceiling of all gas, and the limit covers the
intrinsic cost. -/
theorem checkGas_eq_ok_iff :
    j.checkGas = .ok () ↔
      j.transaction.gasLimit.toNat + j.gasBefore.toNat ≤
          (Gas.cap j.context.block.gasLimit).toNat ∧
        j.transaction.gasLimit.toNat + j.gasBefore.toNat < Gas.ceiling.toNat ∧
        j.basicCost.toNat ≤ j.transaction.gasLimit.toNat := by
  have hroom : (Gas.cap j.context.block.gasLimit < Gas.add j.transaction.gasLimit j.gasBefore ∨
      Gas.add j.transaction.gasLimit j.gasBefore = Gas.ceiling) ↔
      ¬(j.transaction.gasLimit.toNat + j.gasBefore.toNat ≤
          (Gas.cap j.context.block.gasLimit).toNat ∧
        j.transaction.gasLimit.toNat + j.gasBefore.toNat < Gas.ceiling.toNat) := by
    rw [Unsigned.lt_iff, ← Unsigned.toNat_inj, Gas.toNat_add, Gas.toNat_cap, Gas.toNat_ceiling]
    omega
  simp only [checkGas, hroom]
  split
  · rename_i hfull
    simp only [reduceCtorEq, false_iff]
    exact fun h => hfull ⟨h.1, h.2.1⟩
  · rename_i hfree
    obtain ⟨hblock, hceiling⟩ := Decidable.not_not.mp hfree
    split
    · rename_i hshort
      have hshort := Unsigned.lt_iff.mp hshort
      simp only [reduceCtorEq, false_iff]
      omega
    · rename_i hcovered
      have hcovered := Nat.le_of_not_lt hcovered
      exact ⟨fun _ => ⟨hblock, hceiling, hcovered⟩, fun _ => rfl⟩

theorem checkNonce_eq_ok_iff {sender : Address} :
    j.checkNonce outer sender = .ok () ↔ outer.nonce sender = j.transaction.payload.nonce := by
  simp only [checkNonce]
  split
  · rename_i hnext
    exact ⟨fun _ => hnext, fun _ => rfl⟩
  · rename_i hother
    simp [hother]

/-- The checks of the sender succeed only if the first of them does. -/
theorem nonce_of_checkSender {sender : Address}
    (hchecked : j.checkSender outer sender = .ok ()) :
    outer.nonce sender = j.transaction.payload.nonce := by
  obtain ⟨⟨⟩, hnonce, -⟩ := exists_of_bind hchecked
  exact checkNonce_eq_ok_iff.mp hnonce

theorem validate_eq_ok_iff (hchain : j.isLocal = false) :
    (j.validate outer senders).1 = .ok () ↔ j.checkGas = .ok () ∧
      j.checkSender outer (senders.sender j.transaction).1 = .ok () := by
  cases hgas : j.checkGas with
  | error rejection => simp [validate, hchain, hgas]
  | ok => simp [validate, hchain, hgas]

/-- An accepted transaction passes the checks of gas. -/
theorem checkGas_of_accepted (hchain : j.isLocal = false)
    (haccepted : (j.execute outer senders).accepted = true) : j.checkGas = .ok () :=
  ((validate_eq_ok_iff hchain).mp (validate_of_accepted haccepted)).1

/-- The intrinsic cost of an accepted transaction is within its limit. -/
theorem basicCost_le_of_accepted (hchain : j.isLocal = false)
    (haccepted : (j.execute outer senders).accepted = true) :
    j.basicCost.toNat ≤ j.transaction.gasLimit.toNat :=
  (checkGas_eq_ok_iff.mp (checkGas_of_accepted hchain haccepted)).2.2

/-- The nonce of an accepted transaction is the one that the state requires of the sender whom the
cache names. -/
theorem nonce_of_accepted (hchain : j.isLocal = false)
    (haccepted : (j.execute outer senders).accepted = true) :
    outer.nonce (senders.sender j.transaction).1 = j.transaction.payload.nonce :=
  nonce_of_checkSender
    ((validate_eq_ok_iff hchain).mp (validate_of_accepted haccepted)).2

end Job

end LedgerExec
