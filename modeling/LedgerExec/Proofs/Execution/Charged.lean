import LedgerExec.Proofs.Execution.Accepted
set_option autoImplicit false

/-!
# What is charged

The third phase charges the limit short of the gas that goes back.  This holds under
both gas arithmetics and whatever the run has done: `toNat_gasUsed_finalize` is the
amount, and the fee that is paid is the price of this amount (`paidFees_execute`),
although the two are computed apart.
-/

namespace LedgerExec

namespace GasRules

/-- Both arithmetics come to a difference that stops at zero. -/
theorem toNat_subOrZero (rules : GasRules) (x y : Gas) :
    (rules.subOrZero x y).toNat = x.toNat - y.toNat := by
  cases rules with
  | legacy => exact Unsigned.toNat_subSat x y
  | strict =>
      unfold subOrZero
      split
      · rename_i z hsub
        have hsum := Gas.sub_eq_ok_iff.mp hsub
        omega
      · rename_i fault hsub
        have hless := (Gas.sub_eq_error_iff.mp hsub).1
        rw [Unsigned.toNat_zero]
        omega

/-- A sum that goes back is cut off only beyond every limit. -/
theorem toNat_subOrZero_add (rules : GasRules) {limit : Gas}
    (hlimit : limit.toNat ≤ Gas.ceiling.toNat) (left refund : Gas) :
    (rules.subOrZero limit (rules.add left refund)).toNat =
      limit.toNat - (left.toNat + refund.toNat) := by
  rw [Gas.toNat_ceiling] at hlimit
  rw [toNat_subOrZero]
  cases rules with
  | legacy =>
      simp only [add, Unsigned.toNat_addSat]
      omega
  | strict =>
      simp only [add, Gas.toNat_add]
      omega

end GasRules

theorem Transaction.gasLimit_le_ceiling (t : Transaction) :
    t.gasLimit.toNat ≤ Gas.ceiling.toNat := by
  rw [gasLimit, Gas.toNat_cap, Gas.toNat_ceiling]
  omega

namespace Settlement

/-- The fee is the price of what is charged. -/
theorem fee_eq_price (s : Settlement) (rules : GasRules)
    (hlimit : s.gasLimit.toNat ≤ Gas.ceiling.toNat) :
    s.fee = (rules.subOrZero s.gasLimit (rules.add s.gasLeft s.gasRefund)).price s.gasPrice := by
  have hcharged : Unsigned.subSat s.gasLimit (Unsigned.addSat s.gasLeft s.gasRefund) =
      rules.subOrZero s.gasLimit (rules.add s.gasLeft s.gasRefund) := by
    rw [Gas.toNat_ceiling] at hlimit
    rw [← Unsigned.toNat_inj, GasRules.toNat_subOrZero_add _ hlimit, Unsigned.toNat_subSat,
      Unsigned.toNat_addSat]
    omega
  rw [fee, hcharged]

end Settlement

namespace Job

variable {j : Job} {outer : View} {senders : SenderCache}

/-- No charge is beyond the limit. -/
theorem gasUsed_le (j : Job) (e : Execution) :
    (j.gasUsed e).toNat ≤ j.transaction.gasLimit.toNat := by
  rw [gasUsed, GasRules.toNat_subOrZero]
  omega

/-- The third phase, whatever is still pending. -/
theorem finalize_on_chain (hchain : j.isLocal = false) (e : Execution) :
    j.finalize e =
      { e with
        inner := {}
        outer := removeDestroyed (creditDestroyed e.result) (j.paidOut e.commit)
        senders := e.senders.store j.transaction
        result := creditDestroyed e.result
        gasLeft := j.context.gasRules.add e.gasLeft
          (j.settlement (creditDestroyed e.result) e.gasLeft).gasRefund
        logs := e.result.acceptedLogs
        paidFees :=
          if e.prepaid then (j.settlement (creditDestroyed e.result) e.gasLeft).fee else 0
        settlement := some (j.settlement (creditDestroyed e.result) e.gasLeft) } := by
  simp only [finalize, hchain, Bool.false_eq_true, if_false, acceptedLogs_creditDestroyed,
    Execution.commit_eq]
  rfl

/-- What is charged is the limit short of what goes back. -/
theorem toNat_gasUsed_finalize (hchain : j.isLocal = false) (e : Execution) :
    (j.gasUsed (j.finalize e)).toNat = j.transaction.gasLimit.toNat -
      (e.gasLeft.toNat +
        (j.settlement (creditDestroyed e.result) e.gasLeft).gasRefund.toNat) := by
  rw [finalize_on_chain hchain]
  exact GasRules.toNat_subOrZero_add _ j.transaction.gasLimit_le_ceiling _ _

/-- A transaction that has paid in advance pays the price of the gas that its receipt names, and
any other pays nothing. -/
theorem paidFees_execute (hchain : j.isLocal = false)
    (haccepted : (j.execute outer senders).accepted = true) :
    (j.execute outer senders).paidFees =
      if (j.execute outer senders).prepaid then
        (j.receipt (j.execute outer senders)).gasUsed.price j.transaction.payload.gasPrice
      else 0 := by
  rw [execute_of_accepted haccepted]
  generalize j.played outer (j.validate outer senders).2 = e
  have hfee := (j.settlement (creditDestroyed e.result) e.gasLeft).fee_eq_price
    j.context.gasRules j.transaction.gasLimit_le_ceiling
  rw [finalize_on_chain hchain]
  simp only [hfee]
  rfl

end Job

end LedgerExec
