import LedgerExec.Proofs.Execution.GasAccount
set_option autoImplicit false

/-!
# What is left never exceeds the limit

Whatever the interpreter does and whichever gas arithmetic is in force: at every point of
an execution nothing is left, or what is left and what is used do not exceed the limit
together (`Execution.Covered`).  A run that has used more than the limit leaves nothing.
So what goes back to the sender, the refund included, stays below the ceiling of all gas
(`Job.back_le_of_covered`), although a refund may be half of any quantity that fits into
a word.
-/

namespace LedgerExec

/-- Nothing is left, or what is left and what is used do not exceed the limit together. -/
def Execution.Covered (e : Execution) (limit : Gas) : Prop :=
  e.gasLeft = 0 ∨ e.gasLeft.toNat + e.result.gasUsed.toNat ≤ limit.toNat

namespace Job

variable {j : Job} {e : Execution} {limit : Gas} {p : Play}

/-- A play that has not been stopped has not used what is left. -/
def Play.Covered (p : Play) (limit : Gas) : Prop :=
  p.outcome = .ok () → p.execution.gasLeft.toNat + p.program.result.gasUsed.toNat ≤ limit.toNat

theorem covered_moveValue (h : e.Covered limit) (target : Address) :
    (j.moveValue e target).Covered limit := by
  unfold moveValue
  split
  · exact h
  · split
    · exact h
    · exact .inl rfl

theorem covered_chargeBasic (hnone : e.result.gasUsed = 0) :
    (j.chargeBasic e).Covered j.transaction.gasLimit := by
  have hleft : (j.chargeBasic e).gasLeft.toNat =
      j.transaction.gasLimit.toNat - j.basicCost.toNat := Unsigned.toNat_subSat _ _
  have hused : (j.chargeBasic e).result.gasUsed.toNat ≤ j.basicCost.toNat := by
    change (Gas.add e.result.gasUsed j.basicCost).toNat ≤ _
    rw [Gas.toNat_add, hnone, Unsigned.toNat_zero]
    omega
  rw [Execution.Covered, ← Unsigned.toNat_inj, Unsigned.toNat_zero]
  omega

theorem covered_prepare (hleft : e.gasLeft = 0) (owner : Address) (code : Bytes) :
    (j.prepare e owner code).Covered limit := .inl hleft

theorem covered_create (hleft : e.gasLeft = 0) (hfresh : e.result.gasUsed = 0)
    (address : Address) : (j.create e address).Covered j.transaction.gasLimit := by
  refine covered_moveValue ?_ address
  split
  · exact covered_chargeBasic hfresh
  · exact covered_prepare (j := j) hleft address j.transaction.payload.data

theorem covered_close (h : p.Covered limit) : (close p).Covered limit := by
  cases houtcome : p.outcome with
  | ok =>
      simp only [close, houtcome]
      exact .inr (h houtcome)
  | error fault =>
      obtain ⟨outer, inner, hkept⟩ := exists_keepRefused
        (abort { p.execution with result := p.program.result, program := some p.program } fault)
      simp only [close, houtcome, hkept]
      exact .inl rfl

theorem covered_conclude
    (hsum : p.execution.gasLeft.toNat + p.program.result.gasUsed.toNat ≤ limit.toNat) :
    (conclude p).Covered limit := by
  have hconcluded := concluded_conclude p
  generalize conclude p = concluded at hconcluded
  cases hconcluded with
  | clean => exact fun _ => hsum
  | failed => exact fun houtcome => nomatch houtcome
  | reverted => exact fun _ => hsum

/-- The deposit moves gas from what is left to what is used. -/
theorem covered_depositNew
    (hsum : p.execution.gasLeft.toNat + p.program.result.gasUsed.toNat ≤ limit.toNat) :
    (j.depositNew p).Covered limit := by
  have hdeposited := deposited_depositNew j p
  generalize j.depositNew p = deposited at hdeposited
  cases hdeposited with
  | skipped => exact fun _ => hsum
  | refused => exact fun _ => hsum
  | unpaid => exact fun houtcome => nomatch houtcome
  | stored _ address cost left hafforded program hcharge =>
      intro _
      obtain ⟨-, rfl⟩ := Program.charge_eq_ok_iff.mp hcharge
      change left.toNat + (Gas.add p.program.result.gasUsed cost).toNat ≤ _
      rw [Gas.toNat_add]
      omega

theorem covered_wrapUp
    (hsum : p.execution.gasLeft.toNat + p.program.result.gasUsed.toNat ≤ limit.toNat) :
    (j.wrapUp p).Covered limit := by
  have hdeposited := covered_depositNew (j := j) hsum
  simp only [wrapUp]
  cases houtcome : (j.depositNew p).outcome with
  | error fault => exact hdeposited
  | ok => exact covered_conclude (hdeposited houtcome)

/-- What is left after the interpreter is what it has not used. -/
theorem covered_afterInterpreter : (j.afterInterpreter p).Covered j.transaction.gasLimit := by
  unfold afterInterpreter
  split
  · exact fun houtcome => nomatch houtcome
  · rename_i left hsub
    exact covered_wrapUp (Nat.le_of_eq (Gas.sub_eq_ok_iff.mp hsub))

theorem covered_play (j : Job) (e : Execution) (program : Program) :
    (j.play e program).Covered j.transaction.gasLimit := by
  unfold play
  split
  · exact fun houtcome => nomatch houtcome
  · exact covered_afterInterpreter

theorem covered_complete (h : e.Covered j.transaction.gasLimit) :
    (j.complete e).Covered j.transaction.gasLimit := by
  unfold complete
  split
  · exact h
  · exact covered_close (j.covered_play e _)

/-- What goes back after settling is a sum below the ceiling. -/
theorem back_le_of_covered (h : e.Covered j.transaction.gasLimit) :
    e.gasLeft.toNat + (j.settlement (creditDestroyed e.result) e.gasLeft).gasRefund.toNat ≤
      Gas.ceiling.toNat := by
  have hlimit := j.transaction.gasLimit_le_ceiling
  have hrefund := j.toNat_gasRefund e.result e.gasLeft
  have hword := e.result.gasUsed.isLt
  rw [Gas.toNat_ceiling] at hlimit ⊢
  rcases h with hnone | hsum
  · -- the run may have used any gas, but no more than half of it is refunded
    rw [hnone] at hrefund ⊢
    rw [Unsigned.toNat_zero]
    omega
  · omega

end Job

end LedgerExec
