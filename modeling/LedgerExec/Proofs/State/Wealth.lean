import Mathlib.Algebra.Ring.Nat
import Mathlib.Data.List.Perm.Basic
import LedgerExec.Proofs.State.Reading
set_option autoImplicit false

/-!
# The wealth of a state

The wealth of a view is the exact sum of the balances of its accounts.  Two views
that differ at one address differ in wealth by the two balances there
(`wealth_of_update`), which gives the wealth after every operation on accounts.
Credits are exact as long as the sum does not leave the range of balances.
-/

namespace LedgerExec

namespace View

/-- The sum of the balances of all accounts. -/
def wealth (v : View) : Nat := (v.accounts.toList.map fun entry => entry.2.balance.toNat).sum

/-- The sum of the balances of a set of addresses. -/
def held (v : View) (addresses : Std.ExtTreeSet Address) : Nat :=
  (addresses.toList.map fun address => (v.balance address).toNat).sum

variable (v : View)

/-! ## One entry of the sum -/

theorem nodup_toList {κ ν : Type} [Ord κ] [Std.TransOrd κ] [Std.LawfulEqOrd κ]
    (m : Std.ExtTreeMap κ ν) : m.toList.Nodup :=
  (Std.ExtTreeMap.distinct_keys_toList (t := m)).imp fun {a b} hne hab => hne (by simp [hab])

/-- An entry of a map stands in its list once. -/
theorem toList_perm_of_getElem? {κ ν : Type} [Ord κ] [Std.TransOrd κ] [Std.LawfulEqOrd κ]
    {m : Std.ExtTreeMap κ ν} {k : κ} {x : ν} (hentry : m[k]? = some x) :
    m.toList.Perm ((k, x) :: (m.erase k).toList) := by
  have herased : (k, x) ∉ (m.erase k).toList := by
    rw [Std.ExtTreeMap.mem_toList_iff_getElem?_eq_some, Std.ExtTreeMap.getElem?_erase]
    simp
  refine (List.perm_ext_iff_of_nodup (nodup_toList m)
    (List.nodup_cons.mpr ⟨herased, nodup_toList _⟩)).mpr fun ⟨k', x'⟩ => ?_
  rw [List.mem_cons, Std.ExtTreeMap.mem_toList_iff_getElem?_eq_some,
    Std.ExtTreeMap.mem_toList_iff_getElem?_eq_some, Std.ExtTreeMap.getElem?_erase]
  by_cases hk : k = k'
  · subst hk
    simp [hentry, eq_comm]
  · simp [hk, Ne.symm hk]

/-- The wealth of a view is what one address holds and what the others hold. -/
theorem wealth_eq_balance_add (a : Address) :
    v.wealth = (v.balance a).toNat +
      ((v.accounts.erase a).toList.map fun entry => entry.2.balance.toNat).sum := by
  cases haccount : v.account? a with
  | none =>
      have habsent : v.accounts.erase a = v.accounts := by
        apply Std.ExtTreeMap.ext_getElem?
        intro b
        rw [Std.ExtTreeMap.getElem?_erase]
        split
        · rename_i hb
          obtain rfl := Std.compare_eq_iff_eq.mp hb
          rw [getElem?_accounts, haccount]
        · rfl
      simp [wealth, balance, haccount, habsent]
  | some account =>
      have hperm :=
        toList_perm_of_getElem? (m := v.accounts) ((v.getElem?_accounts a).trans haccount)
      rw [wealth, (hperm.map _).sum_nat]
      simp [balance, haccount]

/-- Two views that differ at most at one address. -/
theorem wealth_of_update {v w : View} {a : Address}
    (hsame : ∀ b, b ≠ a → w.account? b = v.account? b) :
    w.wealth + (v.balance a).toNat = v.wealth + (w.balance a).toNat := by
  have hrest : w.accounts.erase a = v.accounts.erase a := by
    apply Std.ExtTreeMap.ext_getElem?
    intro b
    rw [Std.ExtTreeMap.getElem?_erase, Std.ExtTreeMap.getElem?_erase]
    split
    · rfl
    · rename_i hb
      have hne : b ≠ a := fun hba => hb (Std.compare_eq_iff_eq.mpr hba.symm)
      rw [getElem?_accounts, getElem?_accounts, hsame b hne]
  rw [v.wealth_eq_balance_add a, w.wealth_eq_balance_add a, hrest]
  omega

theorem wealth_congr {v w : View} (hsame : ∀ b, w.account? b = v.account? b) :
    w.wealth = v.wealth := by
  rw [wealth, accounts_congr hsame, wealth]

theorem balance_le_wealth (a : Address) : (v.balance a).toNat ≤ v.wealth := by
  rw [v.wealth_eq_balance_add a]
  omega

/-! ## Single writes -/

theorem balance_put (address : Address) (account : Account) (a : Address) :
    (v.put address account).balance a = if a = address then account.balance else v.balance a := by
  by_cases ha : a = address <;> simp [balance, ha]

theorem balance_delete (address a : Address) :
    (v.delete address).balance a = if a = address then 0 else v.balance a := by
  by_cases ha : a = address <;> simp [balance, ha]

theorem wealth_put (address : Address) (account : Account) :
    (v.put address account).wealth + (v.balance address).toNat =
      v.wealth + account.balance.toNat := by
  have hupdate := wealth_of_update (v := v) (w := v.put address account) (a := address)
    fun b hb => by simp [hb]
  rwa [balance_put, if_pos rfl] at hupdate

/-- Writing an account with the balance that it had. -/
theorem wealth_put_same (address : Address) {account : Account}
    (hbalance : account.balance = v.balance address) :
    (v.put address account).wealth = v.wealth := by
  have hput := v.wealth_put address account
  rw [hbalance] at hput
  omega

theorem wealth_delete (address : Address) :
    (v.delete address).wealth + (v.balance address).toNat = v.wealth := by
  have hupdate := wealth_of_update (v := v) (w := v.delete address) (a := address)
    fun b hb => by simp [hb]
  rw [balance_delete, if_pos rfl] at hupdate
  simpa using hupdate

@[simp] theorem wealth_raiseNonce (address : Address) :
    (v.raiseNonce address).wealth = v.wealth :=
  v.wealth_put_same address (v.balance_accountOrFresh address)

@[simp] theorem wealth_saveCode (address : Address) (code : Bytes) :
    (v.saveCode address code).wealth = v.wealth :=
  v.wealth_put_same address (v.balance_accountOrFresh address)

@[simp] theorem wealth_setUpContract (address : Address) :
    (v.setUpContract address).wealth = v.wealth :=
  v.wealth_put_same address (v.balance_accountOrFresh address)

/-- Creating an account where nothing is held. -/
theorem wealth_create (address : Address) (hnothing : v.balance address = 0) :
    (v.create address).wealth = v.wealth := by
  have hdeleted := v.wealth_delete address
  have hput := (v.delete address).wealth_put address Account.fresh
  rw [balance_delete, if_pos rfl] at hput
  rw [hnothing] at hdeleted
  change (v.create address).wealth + _ = _ + (0 : Balance).toNat at hput
  simp only [Unsigned.toNat_zero] at hdeleted hput
  omega

theorem balance_of_not_hasAccount {a : Address} (hmissing : v.hasAccount a = false) :
    v.balance a = 0 := by
  have hnone : v.account? a = none := by simpa [hasAccount] using hmissing
  simp [balance, hnone]

/-! ## Money that moves -/

/-- A credit is exact while the wealth stays in the range of balances. -/
theorem wealth_credit (address : Address) (amount : Balance)
    (hrange : v.wealth + amount.toNat < 1 <<< 128) :
    (v.credit address amount).wealth = v.wealth + amount.toNat := by
  have hput : (v.credit address amount).wealth + (v.balance address).toNat =
      v.wealth + (Unsigned.addSat (v.accountOrFresh address).balance amount).toNat :=
    v.wealth_put address _
  have hheld := v.balance_le_wealth address
  rw [balance_accountOrFresh, Unsigned.toNat_addSat] at hput
  omega

theorem wealth_debit {v w : View} {address : Address} {amount : Balance}
    (hdebit : v.debit address amount = .ok w) : w.wealth + amount.toNat = v.wealth := by
  obtain ⟨rest, hrest, rfl⟩ := debit_eq_ok_iff.mp hdebit
  have hput : (v.put address { v.accountOrFresh address with balance := rest }).wealth +
      (v.balance address).toNat = v.wealth + rest.toNat := v.wealth_put address _
  omega

theorem wealth_transfer {v w : View} {source target : Address} {amount : Balance}
    (hrange : v.wealth < 1 <<< 128) (htransfer : v.transfer source target amount = .ok w) :
    w.wealth = v.wealth := by
  obtain ⟨u, hdebit, rfl⟩ := transfer_eq_ok_iff.mp htransfer
  have htaken := wealth_debit hdebit
  rw [u.wealth_credit target amount (by omega), htaken]

/-! ## The pile -/

@[simp] theorem wealth_push : v.push.wealth = v.wealth := wealth_congr fun b => v.account?_push b

/-- A committed view is worth what the view was worth that was on top of it. -/
@[simp] theorem wealth_pop_commit : v.commit.pop.wealth = v.wealth :=
  wealth_congr fun b => v.account?_pop_commit b

/-- Deleting accounts takes what they hold. -/
theorem wealth_foldl_delete (addresses : List Address) (hdistinct : addresses.Nodup) :
    (addresses.foldl delete v).wealth +
      (addresses.map fun address => (v.balance address).toNat).sum = v.wealth := by
  induction addresses generalizing v with
  | nil => simp
  | cons a rest ih =>
      obtain ⟨hfresh, hrest⟩ := List.nodup_cons.mp hdistinct
      have hdeleted := v.wealth_delete a
      have hremoved := ih (v.delete a) hrest
      -- the accounts that are still to be deleted hold what they held
      have hkept : (rest.map fun address => ((v.delete a).balance address).toNat) =
          rest.map fun address => (v.balance address).toNat := by
        refine List.map_congr_left fun b hb => ?_
        have hne : b ≠ a := fun hba => hfresh (hba ▸ hb)
        rw [balance_delete, if_neg hne]
      rw [hkept] at hremoved
      rw [List.foldl_cons, List.map_cons, List.sum_cons]
      omega

theorem nodup_toList_set (addresses : Std.ExtTreeSet Address) : addresses.toList.Nodup :=
  (Std.ExtTreeSet.distinct_toList (t := addresses)).imp fun {a b} hne hab => hne (by simp [hab])

end View

end LedgerExec
