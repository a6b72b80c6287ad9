import LedgerExec.Proofs.Execution.Settled
import LedgerExec.Proofs.State.Wealth
set_option autoImplicit false

/-!
# Conservation of value

An executed transaction moves money and makes none.  What leaves the state is the
price of the rent gas, which is never given back, and what the destroyed accounts
hold when they are removed.

Three facts carry this.  Nothing that a run does to its view changes the wealth
(`stable_wealth`), so however the second phase ends the outer view is worth what
was left after the payment (`wealth_of_ended`).  What is given back, refunded and
paid as a fee is the price of the gas limit, exactly (`payments_sum`), because the
gas left and the refund never exceed the limit (`gasBack_of_ended`).
-/

namespace LedgerExec

namespace Settlement

/-- The three payments of a settlement are the price of the gas limit. -/
theorem payments_sum (s : Settlement)
    (hback : s.gasLeft.toNat + s.gasRefund.toNat ≤ s.gasLimit.toNat)
    (hrange : s.gasLimit.toNat * s.gasPrice.toNat < 1 <<< 128) :
    (Unsigned.addSat s.leftover s.refund).toNat + s.fee.toNat =
      s.gasLimit.toNat * s.gasPrice.toNat := by
  obtain ⟨rest, hlimit⟩ := Nat.exists_eq_add_of_le hback
  have hword := s.gasLimit.isLt
  have hspent : (Unsigned.subSat s.gasLimit (Unsigned.addSat s.gasLeft s.gasRefund)).toNat =
      rest := by
    rw [Unsigned.toNat_subSat, Unsigned.toNat_addSat]
    omega
  have hsplit : s.gasLimit.toNat * s.gasPrice.toNat =
      s.gasLeft.toNat * s.gasPrice.toNat + s.gasRefund.toNat * s.gasPrice.toNat +
        rest * s.gasPrice.toNat := by
    rw [hlimit, Nat.add_mul, Nat.add_mul]
  have hleftover := Gas.toNat_price s.gasLeft s.gasPrice
  have hrefund := Gas.toNat_price s.gasRefund s.gasPrice
  have hfee : s.fee.toNat = min (rest * s.gasPrice.toNat) ((1 <<< 128) - 1) := by
    rw [fee, Gas.toNat_price, hspent]
  rw [Unsigned.toNat_addSat, leftover, refund, hleftover, hrefund, hfee]
  omega

end Settlement

namespace Job

variable {j : Job} {outer paid : View} {senders : SenderCache} {e f : Execution}

/-! ## The payments -/

theorem wealth_payOut (s : Settlement) (v : View)
    (hback : s.gasLeft.toNat + s.gasRefund.toNat ≤ s.gasLimit.toNat)
    (hrange : v.wealth + s.gasLimit.toNat * s.gasPrice.toNat < 1 <<< 128) :
    (j.payOut s v).wealth = v.wealth + s.gasLimit.toNat * s.gasPrice.toNat := by
  have hsum := s.payments_sum hback (by omega)
  have hsender := v.wealth_credit j.transaction.sender (Unsigned.addSat s.leftover s.refund)
    (by omega)
  rw [payOut, View.wealth_credit _ _ _ (by omega), hsender]
  omega

/-- The prepayment is exact when it can be taken from a state whose wealth is in range. -/
theorem wealth_of_prepaid (hrange : outer.wealth < (1 <<< 128) - 1)
    (hdebit : (outer.raiseNonce j.transaction.sender).debit j.transaction.sender j.prepayment =
      .ok paid) :
    paid.wealth + j.transaction.gasLimit.toNat * j.transaction.payload.gasPrice.toNat +
      j.transaction.rentGasLimit.toNat * j.transaction.payload.gasPrice.toNat = outer.wealth := by
  have hpaid := View.wealth_debit hdebit
  rw [View.wealth_raiseNonce, prepayment, Unsigned.toNat_addSat, gasPrepayment, rentPrepayment,
    Gas.toNat_price, Gas.toNat_price] at hpaid
  omega

/-- Whatever the second phase leaves, no more gas goes back than the transaction has. -/
theorem gasBack_of_ended {I : View → Prop} (hended : j.Ended paid I e f)
    (hinterpreter : ∀ program v, j.handed? e = some (program, v) →
      (j.outcome program v).gasUsed ≤ j.transaction.gasLimit) :
    f.gasLeft.toNat +
        (Gas.cappedRefund (creditDestroyed f.result).refund
          (creditDestroyed f.result).gasUsed).toNat ≤
      j.transaction.gasLimit.toNat := by
  have hcapped : (Gas.cappedRefund (creditDestroyed f.result).refund
      (creditDestroyed f.result).gasUsed).toNat ≤ f.result.gasUsed.toNat := by
    rw [Gas.cappedRefund, Unsigned.toNat_min, Gas.toNat_half]
    change min _ (f.result.gasUsed.toNat / 2) ≤ _
    omega
  have hquiet : f.result.Quiet → (Gas.cappedRefund (creditDestroyed f.result).refund
      (creditDestroyed f.result).gasUsed).toNat = 0 := fun hquiet => by
    rw [Gas.cappedRefund, (quiet_creditDestroyed hquiet).refund, Unsigned.toNat_min]
    simp
  cases hended.ending with
  | stands v herror hinside hbelow houter hgas =>
      rcases hgas with ⟨hnothing, hgas⟩ | hgas
      · rw [hquiet hnothing]
        exact hgas
      · omega
  | undone herror houter hnothing hgas =>
      rw [hquiet hnothing]
      exact hgas
  | loose program v hhanded hcause herror houter hgas hused =>
      have hlimit := Unsigned.le_iff.mp (hinterpreter program v hhanded)
      rw [hgas, Unsigned.toNat_zero]
      rw [hused] at hcapped
      omega

/-! ## The run -/

/-- A run does not change the wealth of its view, if the new contract's address holds nothing. -/
theorem stable_wealth (hrange : paid.wealth < 1 <<< 128)
    (hcreation : j.transaction.isCreation = true → paid.balance j.newAddress = 0) :
    j.Stable paid fun v => v.wealth = paid.wealth where
  start := paid.wealth_push
  created hcreates := by
    have hnothing : paid.push.balance j.newAddress = 0 := by
      simpa [View.balance] using hcreation hcreates
    rw [View.wealth_create _ _ hnothing, View.wealth_push]
  create v address hmissing hv := by
    rw [v.wealth_create address (v.balance_of_not_hasAccount hmissing), hv]
  setUpContract v address hv := by rw [View.wealth_setUpContract, hv]
  saveCode v address code hv := by rw [View.wealth_saveCode, hv]
  transfer v w address htransfer hv := by
    rw [View.wealth_transfer (by omega) htransfer, hv]

theorem wealth_kept (j : Job) (paid : View) (refused : Bool) :
    (j.kept paid refused).wealth = paid.wealth := by
  unfold kept
  split
  · rename_i hkept
    have hmissing : paid.hasAccount j.newAddress = false := by
      rw [Bool.and_eq_true] at hkept
      simpa using hkept.2
    exact paid.wealth_create _ (paid.balance_of_not_hasAccount hmissing)
  · rfl

/-- However the second phase ends, the outer view is worth what it was after the payment. -/
theorem wealth_of_ended (hended : j.Ended paid (fun v => v.wealth = paid.wealth) e f) :
    f.outer.wealth = paid.wealth := by
  cases hended.ending with
  | stands v _ hinside _ houter =>
      rw [houter, v.wealth_pop_commit, hinside]
  | undone _ houter => rw [houter, j.wealth_kept]
  | loose _ _ _ _ _ houter => rw [houter]

/-! ## Saving and removing -/

theorem wealth_saveChanges (r : RunResult) (v : View) : (saveChanges r v).wealth = v.wealth := by
  unfold saveChanges
  generalize r.codeChanges.toList = changes
  induction changes generalizing v with
  | nil => rfl
  | cons change rest ih =>
      rw [List.foldl_cons, ih, View.wealth_saveCode]

theorem wealth_removeDestroyed (r : RunResult) (v : View) :
    (removeDestroyed r v).wealth + v.held r.destroyed = v.wealth :=
  v.wealth_foldl_delete r.destroyed.toList (View.nodup_toList_set r.destroyed)

/-- The outer view of an accepted transaction when its destroyed accounts are about to be
removed. -/
def beforeRemoval (j : Job) (outer : View) (senders : SenderCache) : View :=
  j.paidOut (j.played outer (j.validate outer senders).2).commit

theorem beforeRemoval_of_clean
    (hclean : (j.played outer (j.validate outer senders).2).inner = {}) :
    j.beforeRemoval outer senders = j.paidOut (j.played outer (j.validate outer senders).2) := by
  rw [beforeRemoval, Execution.commit_of_clean _ hclean]

/-- The payments bring the outer view back to what it was worth, short of the rent gas. -/
theorem wealth_paidOut (hprepaid : f.prepaid = true)
    (hback : f.gasLeft.toNat + (Gas.cappedRefund (creditDestroyed f.result).refund
      (creditDestroyed f.result).gasUsed).toNat ≤ j.transaction.gasLimit.toNat)
    (hrange : f.outer.wealth + j.transaction.gasLimit.toNat *
      j.transaction.payload.gasPrice.toNat < 1 <<< 128) :
    (j.paidOut f).wealth = f.outer.wealth +
      j.transaction.gasLimit.toNat * j.transaction.payload.gasPrice.toNat := by
  simp only [paidOut, hprepaid, if_true, wealth_saveChanges]
  exact wealth_payOut (j.settlement (creditDestroyed f.result) f.gasLeft) f.outer hback hrange

/-- What a paid transaction takes from the state. -/
theorem wealth_execute (hchain : j.isLocal = false) (hrange : outer.wealth < 2 ^ 128 - 1)
    (hcreation : j.transaction.isCreation = true →
      outer.balance j.newAddress = 0 ∧ j.newAddress ≠ j.transaction.sender)
    (hinterpreter : ∀ program v, j.interpreterCall? outer senders = some (program, v) →
      j.context.interpreter.Contained program v ∧
        (j.context.interpreter program v).2.wealth = v.wealth ∧
        (j.outcome program v).gasUsed ≤ j.transaction.gasLimit)
    (haccepted : (j.execute outer senders).accepted = true)
    (hprepaid : (j.execute outer senders).prepaid = true) :
    (j.execute outer senders).outer.wealth +
        j.transaction.rentGasLimit.toNat * j.transaction.payload.gasPrice.toNat +
        (j.beforeRemoval outer senders).held (j.execute outer senders).result.destroyed =
      outer.wealth := by
  rw [execute_of_accepted haccepted] at hprepaid ⊢
  cases hdebit :
      (outer.raiseNonce j.transaction.sender).debit j.transaction.sender j.prepayment with
  | error fault =>
      rw [played_of_unpaid hchain hdebit, finalize_of_clean hchain rfl] at hprepaid
      simp at hprepaid
  | ok paid =>
      have hpaid := wealth_of_prepaid (by omega) hdebit
      have hunheld : j.transaction.isCreation = true → paid.balance j.newAddress = 0 := by
        intro hcreates
        obtain ⟨hnothing, hother⟩ := hcreation hcreates
        obtain ⟨rest, -, rfl⟩ := View.debit_eq_ok_iff.mp hdebit
        rw [View.balance_put, if_neg hother, View.raiseNonce, View.balance_put, if_neg hother]
        exact hnothing
      have hended := (paidFor hchain hdebit (stable_wealth (by omega) hunheld)
        fun program v hcall =>
          ⟨(hinterpreter program v hcall).1,
            fun hv => (hinterpreter program v hcall).2.1.trans hv⟩).ended
      have hback := gasBack_of_ended hended fun program v hcall =>
        (hinterpreter program v hcall).2.2
      have houter := wealth_of_ended hended
      have hsettled := wealth_paidOut (by rw [hended.prepaid, hchain]; rfl) hback (by omega)
      have hremoved := wealth_removeDestroyed
        (creditDestroyed (j.played outer (j.validate outer senders).2).result)
        (j.paidOut (j.played outer (j.validate outer senders).2))
      rw [beforeRemoval_of_clean hended.inner, finalize_of_clean hchain hended.inner]
      simp only
      omega

/-- A call of a contract that sends some of its money away and destroys itself. -/
def destroyingCall : Job :=
  sample
    { gasPrice := 3
      gasLimit := 50000
      rentGasLimit := 1000
      receiver := Address.sample.toBytes
      value := 8 }
    [([1],
      [ .nested { name := "INNER" }
          [ .act { name := "SEND" } (.transfer (Octets.ofNat .address 77) 40) ] true,
        .act { name := "SPEND", gas := 5000 } (.spend 5000 "work"),
        .act { name := "DESTROY" } .markDestroyed ])]

theorem wealth_execute_destroyingCall :
    (destroyingCall.beforeRemoval View.sample (SenderCache.ofCapacity 1)).held
        (destroyingCall.execute View.sample (SenderCache.ofCapacity 1)).result.destroyed = 68 ∧
      (destroyingCall.execute View.sample (SenderCache.ofCapacity 1)).outer.wealth + 3000 + 68 =
        View.sample.wealth := by
  have hfacts :
      (destroyingCall.execute View.sample (SenderCache.ofCapacity 1)).accepted = true ∧
        (destroyingCall.execute View.sample (SenderCache.ofCapacity 1)).prepaid = true ∧
        (destroyingCall.beforeRemoval View.sample (SenderCache.ofCapacity 1)).held
          (destroyingCall.execute View.sample (SenderCache.ofCapacity 1)).result.destroyed = 68 ∧
        destroyingCall.transaction.rentGasLimit.toNat *
          destroyingCall.transaction.payload.gasPrice.toNat = 3000 ∧
        ∀ call ∈ destroyingCall.interpreterCall? View.sample (SenderCache.ofCapacity 1),
          (destroyingCall.context.interpreter call.1 call.2).2.wealth = call.2.wealth ∧
            (destroyingCall.outcome call.1 call.2).gasUsed ≤
              destroyingCall.transaction.gasLimit := by
    decide +kernel
  obtain ⟨haccepted, hprepaid, hheld, hrent, hcalls⟩ := hfacts
  have hconserved := wealth_execute rfl (by decide +kernel) (by decide +kernel)
    (fun program v hcall =>
      ⟨Interpreter.scripted_contained _ program v, hcalls (program, v) hcall⟩)
    haccepted hprepaid
  rw [hrent, hheld] at hconserved
  exact ⟨hheld, hconserved⟩

end Job

end LedgerExec
