import LedgerExec.Proofs.State.Reading
set_option autoImplicit false

/-!
# Nonces of a state

Of all that is done with accounts, only raising a nonce and creating an account over
another one change a nonce.  Everything else writes an account with the nonce that it
had.
-/

namespace LedgerExec

namespace View

variable (v : View)

/-! ## Single writes -/

@[simp] theorem nonce_accountOrFresh (a : Address) :
    (v.accountOrFresh a).nonce = v.nonce a := by
  cases h : v.account? a <;> simp [accountOrFresh, nonce, h, Account.fresh]

theorem nonce_put (address : Address) (account : Account) (a : Address) :
    (v.put address account).nonce a = if a = address then account.nonce else v.nonce a := by
  by_cases ha : a = address <;> simp [nonce, ha]

/-- Writing an account with the nonce that it had. -/
theorem nonce_put_same (address a : Address) {account : Account}
    (hnonce : account.nonce = v.nonce address) : (v.put address account).nonce a = v.nonce a := by
  rw [nonce_put, hnonce]
  split
  · rename_i ha
    rw [ha]
  · rfl

@[simp] theorem nonce_credit (address : Address) (amount : Balance) (a : Address) :
    (v.credit address amount).nonce a = v.nonce a :=
  v.nonce_put_same address a (v.nonce_accountOrFresh address)

@[simp] theorem nonce_saveCode (address : Address) (code : Bytes) (a : Address) :
    (v.saveCode address code).nonce a = v.nonce a :=
  v.nonce_put_same address a (v.nonce_accountOrFresh address)

@[simp] theorem nonce_setUpContract (address a : Address) :
    (v.setUpContract address).nonce a = v.nonce a :=
  v.nonce_put_same address a (v.nonce_accountOrFresh address)

theorem nonce_raiseNonce (address a : Address) :
    (v.raiseNonce address).nonce a =
      if a = address then Unsigned.addSat (v.nonce address) 1 else v.nonce a := by
  rw [raiseNonce, nonce_put, nonce_accountOrFresh]

theorem nonce_debit {v w : View} {address : Address} {amount : Balance}
    (hdebit : v.debit address amount = .ok w) (a : Address) : w.nonce a = v.nonce a := by
  obtain ⟨rest, -, rfl⟩ := debit_eq_ok_iff.mp hdebit
  exact v.nonce_put_same address a (v.nonce_accountOrFresh address)

theorem nonce_transfer {v w : View} {source target : Address} {amount : Balance}
    (htransfer : v.transfer source target amount = .ok w) (a : Address) :
    w.nonce a = v.nonce a := by
  obtain ⟨u, hdebit, rfl⟩ := transfer_eq_ok_iff.mp htransfer
  rw [nonce_credit, nonce_debit hdebit]

/-! ## Creations -/

/-- A creation changes no nonce elsewhere. -/
theorem nonce_create {address a : Address} (ha : a ≠ address) :
    (v.create address).nonce a = v.nonce a := by
  simp [create, nonce, ha]

/-- Creating an account where there is none changes no nonce. -/
theorem nonce_create_of_missing {address : Address} (hmissing : v.hasAccount address = false)
    (a : Address) : (v.create address).nonce a = v.nonce a := by
  by_cases ha : a = address
  · have hnone : v.account? address = none := by simpa [hasAccount] using hmissing
    simp [create, nonce, ha, hnone, Account.fresh]
  · exact v.nonce_create ha

/-! ## The pile -/

@[simp] theorem nonce_push (a : Address) : v.push.nonce a = v.nonce a := by simp [nonce]

/-- The view below shows what was committed to it. -/
@[simp] theorem nonce_pop_commit (a : Address) : v.commit.pop.nonce a = v.nonce a := by
  simp [nonce]

end View

end LedgerExec
