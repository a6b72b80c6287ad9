import LedgerExec.Proofs.State.Nonces
import LedgerExec.Proofs.State.Wealth
set_option autoImplicit false

/-!
# Balances of a state

What each operation on accounts does to the balance of one address, beside the nonces.
Money moves by credits and debits alone; a creation takes what the address held.

`View.SameStanding` compares two views by balances and nonces together.  An operation
that writes neither is one step of it, and a transfer out of either of two views that
agree is a transfer out of the other.
-/

namespace LedgerExec

namespace View

variable (v : View)

/-! ## Operations that move nothing -/

/-- Writing an account with the balance that it had. -/
theorem balance_put_same (address a : Address) {account : Account}
    (hbalance : account.balance = v.balance address) :
    (v.put address account).balance a = v.balance a := by
  rw [balance_put, hbalance]
  split
  · rename_i ha
    rw [ha]
  · rfl

@[simp] theorem balance_raiseNonce (address a : Address) :
    (v.raiseNonce address).balance a = v.balance a :=
  v.balance_put_same address a (v.balance_accountOrFresh address)

@[simp] theorem balance_saveCode (address : Address) (code : Bytes) (a : Address) :
    (v.saveCode address code).balance a = v.balance a :=
  v.balance_put_same address a (v.balance_accountOrFresh address)

@[simp] theorem balance_setUpContract (address a : Address) :
    (v.setUpContract address).balance a = v.balance a :=
  v.balance_put_same address a (v.balance_accountOrFresh address)

@[simp] theorem balance_push (a : Address) : v.push.balance a = v.balance a := by simp [balance]

/-- The view below shows what was committed to it. -/
@[simp] theorem balance_pop_commit (a : Address) : v.commit.pop.balance a = v.balance a := by
  simp [balance]

/-! ## Creations -/

/-- A creation takes what the address held. -/
theorem balance_create (address a : Address) :
    (v.create address).balance a = if a = address then 0 else v.balance a := by
  rw [create, balance_put, balance_delete]
  split <;> rfl

/-- Creating an account where there is none changes no balance. -/
theorem balance_create_of_missing {address : Address} (hmissing : v.hasAccount address = false)
    (a : Address) : (v.create address).balance a = v.balance a := by
  rw [balance_create]
  split
  · rename_i ha
    rw [ha, v.balance_of_not_hasAccount hmissing]
  · rfl

/-- A new account has not sent anything. -/
theorem nonce_create_self (address : Address) : (v.create address).nonce address = 0 := by
  rw [create, nonce_put, if_pos rfl]
  rfl

/-! ## Money that moves -/

theorem balance_credit (address : Address) (amount : Balance) (a : Address) :
    (v.credit address amount).balance a =
      if a = address then Unsigned.addSat (v.balance address) amount else v.balance a := by
  rw [credit, balance_put, balance_accountOrFresh]

/-- A credit in numbers: what is beyond the greatest balance is cut off. -/
theorem toNat_balance_credit (address : Address) (amount : Balance) (a : Address) :
    ((v.credit address amount).balance a).toNat =
      min ((v.balance a).toNat + (if a = address then amount.toNat else 0)) (2 ^ 128 - 1) := by
  have hbalance := (v.balance a).isLt
  rw [Nat.one_shiftLeft] at hbalance
  rw [balance_credit]
  split
  · rename_i ha
    rw [ha, Unsigned.toNat_addSat, Nat.one_shiftLeft]
  · omega

theorem balance_debit {v w : View} {address : Address} {amount : Balance}
    (hdebit : v.debit address amount = .ok w) (a : Address) :
    (w.balance a).toNat + (if a = address then amount.toNat else 0) = (v.balance a).toNat := by
  obtain ⟨rest, hrest, rfl⟩ := debit_eq_ok_iff.mp hdebit
  rw [balance_put]
  by_cases ha : a = address
  · rw [if_pos ha, if_pos ha, ha]
    exact hrest
  · rw [if_neg ha, if_neg ha, Nat.add_zero]

theorem exists_debit {v : View} {address : Address} {amount : Balance}
    (hcovered : amount.toNat ≤ (v.balance address).toNat) :
    ∃ w, v.debit address amount = .ok w :=
  ⟨_, debit_eq_ok_iff.mpr ⟨Unsigned.subSat (v.balance address) amount,
    Nat.sub_add_cancel hcovered, rfl⟩⟩

/-- An amount can be taken exactly if it is there. -/
theorem exists_debit_iff (address : Address) (amount : Balance) :
    (∃ w, v.debit address amount = .ok w) ↔ amount.toNat ≤ (v.balance address).toNat := by
  refine ⟨fun ⟨w, hdebit⟩ => ?_, exists_debit⟩
  have htaken := balance_debit hdebit address
  rw [if_pos rfl] at htaken
  omega

theorem exists_transfer {v : View} {source : Address} {amount : Balance}
    (hcovered : amount.toNat ≤ (v.balance source).toNat) (target : Address) :
    ∃ w, v.transfer source target amount = .ok w := by
  obtain ⟨u, hdebit⟩ := exists_debit hcovered
  exact ⟨u.credit target amount, transfer_eq_ok_iff.mpr ⟨u, hdebit, rfl⟩⟩

/-- A sender has lost what it has sent to somebody else. -/
theorem balance_transfer_source {v w : View} {source target : Address} {amount : Balance}
    (htransfer : v.transfer source target amount = .ok w) (hother : source ≠ target) :
    (w.balance source).toNat + amount.toNat = (v.balance source).toNat := by
  obtain ⟨u, hdebit, rfl⟩ := transfer_eq_ok_iff.mp htransfer
  have htaken := balance_debit hdebit source
  rw [if_pos rfl] at htaken
  rw [balance_credit, if_neg hother]
  exact htaken

/-- Nothing is moved by a transfer exactly if its amount is zero or it goes to where it comes
from. -/
theorem balance_transfer_same_iff {v w : View} {source target : Address} {amount : Balance}
    (htransfer : v.transfer source target amount = .ok w) :
    (∀ a, w.balance a = v.balance a) ↔ amount = 0 ∨ source = target := by
  constructor
  · intro hsame
    by_cases hself : source = target
    · exact .inr hself
    · have hsource := balance_transfer_source htransfer hself
      rw [hsame source] at hsource
      refine .inl (Unsigned.toNat_inj.mp ?_)
      rw [Unsigned.toNat_zero]
      omega
  · intro hnothing a
    obtain ⟨u, hdebit, rfl⟩ := transfer_eq_ok_iff.mp htransfer
    have hthere := balance_debit hdebit a
    have hbalance := (v.balance a).isLt
    rw [← Unsigned.toNat_inj, balance_credit]
    rcases hnothing with rfl | rfl
    · rw [Unsigned.toNat_zero, ite_self, Nat.add_zero] at hthere
      split
      · rename_i ha
        rw [← ha, Unsigned.toNat_addSat, Unsigned.toNat_zero]
        omega
      · exact hthere
    · split
      · rename_i ha
        rw [if_pos ha] at hthere
        rw [← ha, Unsigned.toNat_addSat]
        omega
      · rename_i ha
        rw [if_neg ha] at hthere
        omega

/-! ## Balances and nonces together -/

/-- Every address has the same balance and the same nonce in both views. -/
def SameStanding (v w : View) : Prop := ∀ a, w.balance a = v.balance a ∧ w.nonce a = v.nonce a

theorem SameStanding.refl : v.SameStanding v := fun _ => ⟨rfl, rfl⟩

theorem SameStanding.trans {u v w : View} (huv : u.SameStanding v) (hvw : v.SameStanding w) :
    u.SameStanding w :=
  fun a => ⟨(hvw a).1.trans (huv a).1, (hvw a).2.trans (huv a).2⟩

theorem SameStanding.symm {v w : View} (h : v.SameStanding w) : w.SameStanding v :=
  fun a => ⟨(h a).1.symm, (h a).2.symm⟩

theorem sameStanding_push : v.SameStanding v.push :=
  fun a => ⟨v.balance_push a, v.nonce_push a⟩

theorem sameStanding_pop_commit : v.SameStanding v.commit.pop :=
  fun a => ⟨v.balance_pop_commit a, v.nonce_pop_commit a⟩

theorem sameStanding_setUpContract (address : Address) :
    v.SameStanding (v.setUpContract address) :=
  fun a => ⟨v.balance_setUpContract address a, v.nonce_setUpContract address a⟩

theorem sameStanding_saveCode (address : Address) (code : Bytes) :
    v.SameStanding (v.saveCode address code) :=
  fun a => ⟨v.balance_saveCode address code a, v.nonce_saveCode address code a⟩

theorem sameStanding_create_of_missing {address : Address}
    (hmissing : v.hasAccount address = false) : v.SameStanding (v.create address) :=
  fun a => ⟨v.balance_create_of_missing hmissing a, v.nonce_create_of_missing hmissing a⟩

/-- A creation goes unnoticed exactly if the address had nothing and had sent nothing. -/
theorem sameStanding_create_iff (address : Address) :
    v.SameStanding (v.create address) ↔ v.balance address = 0 ∧ v.nonce address = 0 := by
  constructor
  · intro hsame
    obtain ⟨hbalance, hnonce⟩ := hsame address
    rw [balance_create, if_pos rfl] at hbalance
    rw [nonce_create_self] at hnonce
    exact ⟨hbalance.symm, hnonce.symm⟩
  · rintro ⟨hbalance, hnonce⟩ a
    by_cases ha : a = address
    · rw [ha, balance_create, if_pos rfl, nonce_create_self, hbalance, hnonce]
      exact ⟨rfl, rfl⟩
    · rw [balance_create, if_neg ha, v.nonce_create ha]
      exact ⟨rfl, rfl⟩

theorem SameStanding.create {v w : View} (h : v.SameStanding w) (address : Address) :
    (v.create address).SameStanding (w.create address) := by
  intro a
  rw [balance_create, balance_create]
  by_cases ha : a = address
  · rw [if_pos ha, if_pos ha, ha, nonce_create_self, nonce_create_self]
    exact ⟨rfl, rfl⟩
  · rw [if_neg ha, if_neg ha, v.nonce_create ha, w.nonce_create ha]
    exact h a

theorem SameStanding.credit {v w : View} (h : v.SameStanding w) (address : Address)
    (amount : Balance) : (v.credit address amount).SameStanding (w.credit address amount) := by
  intro a
  rw [balance_credit, balance_credit, nonce_credit, nonce_credit, (h address).1, (h a).1, (h a).2]
  exact ⟨rfl, rfl⟩

/-- What can be taken from a view can be taken from one where everybody has the same. -/
theorem SameStanding.debit {u v v' : View} {address : Address} {amount : Balance}
    (h : u.SameStanding v) (hdebit : v.debit address amount = .ok v') :
    ∃ w, u.debit address amount = .ok w ∧ w.SameStanding v' := by
  obtain ⟨rest, hrest, rfl⟩ := debit_eq_ok_iff.mp hdebit
  rw [(h address).1] at hrest
  have hdebit' := debit_eq_ok_iff.mpr ⟨rest, hrest, rfl⟩
  refine ⟨_, hdebit', fun a => ⟨?_, ?_⟩⟩
  · rw [balance_put, balance_put, (h a).1]
  · rw [nonce_debit hdebit, nonce_debit hdebit', (h a).2]

/-- What can be sent in a view can be sent in one where everybody has the same. -/
theorem SameStanding.transfer {u v v' : View} {source target : Address} {amount : Balance}
    (h : u.SameStanding v) (htransfer : v.transfer source target amount = .ok v') :
    ∃ w, u.transfer source target amount = .ok w ∧ w.SameStanding v' := by
  obtain ⟨taken, hdebit, rfl⟩ := transfer_eq_ok_iff.mp htransfer
  obtain ⟨w, hdebit', hsame⟩ := h.debit hdebit
  exact ⟨w.credit target amount, transfer_eq_ok_iff.mpr ⟨w, hdebit', rfl⟩,
    hsame.credit target amount⟩

end View

end LedgerExec
