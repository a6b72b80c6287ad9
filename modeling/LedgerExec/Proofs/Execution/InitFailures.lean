import LedgerExec.Proofs.Execution.Deposits
import LedgerExec.Proofs.Execution.Charged
set_option autoImplicit false

/-!
# Init code that fails

The code that init code returns is deposited before it is asked whether the program has
failed.  So a failure is reported as such only if what the program returned could be
deposited: a refusal takes its place, and leaves an account that no other failed run
leaves (`reported_of_fault`).
-/

namespace LedgerExec

namespace Job

variable {j : Job} {outer : View} {senders : SenderCache} {program : Program} {v : View}

/-! ## The accounts that are left -/

/-- Paying out leaves accounts where it pays. -/
theorem hasAccount_payOut (j : Job) (s : Settlement) (v : View) (a : Address) :
    (j.payOut s v).hasAccount a = true ↔
      v.hasAccount a = true ∨ a = j.transaction.sender ∨ a = j.context.feeRecipient := by
  simp only [payOut, View.credit, View.hasAccount_put]
  grind

/-- Settling a run that is forgotten and has been paid for adds the accounts that it pays. -/
theorem hasAccount_finalize (hchain : j.isLocal = false) {e : Execution} (hclean : e.inner = {})
    (hquiet : e.result.Quiet) (hprepaid : e.prepaid = true) (a : Address) :
    (j.finalize e).outer.hasAccount a = true ↔
      e.outer.hasAccount a = true ∨ a = j.transaction.sender ∨ a = j.context.feeRecipient := by
  rw [outer_finalize_of_quiet hchain hclean hquiet, if_pos hprepaid]
  exact j.hasAccount_payOut _ e.outer a

/-- Taking the price in advance leaves an account of the sender. -/
theorem hasAccount_paid {paid : View}
    (hdebit : (outer.raiseNonce j.transaction.sender).debit j.transaction.sender j.prepayment =
      .ok paid) (a : Address) :
    paid.hasAccount a = true ↔ outer.hasAccount a = true ∨ a = j.transaction.sender := by
  obtain ⟨rest, -, rfl⟩ := View.debit_eq_ok_iff.mp hdebit
  simp only [View.raiseNonce, View.hasAccount_put]
  grind

/-! ## What is reported -/

/-- What is reported of init code that has failed with `fault`, in a call of the interpreter with
`program` and `v`, and what the creation leaves at the address of the contract. -/
inductive Reported (j : Job) (outer : View) (program : Program) (v : View) (fault : RunFault)
    (e : Execution) : Prop
  /-- what the program returned is refused, and the refusal is reported -/
  | refusal (refusal : RunFault)
      (refused : j.refusal?
        (Unsigned.subSat j.transaction.gasLimit (j.outcome program v).gasUsed)
        (j.handedBack program v) = some refusal)
      (error : e.error = some (.failed refusal)) (recorded : e.result.fault = some refusal)
      (deposit : e.depositRefused = true)
      (account : e.outer.hasAccount j.newAddress = true)
  /-- the program was invoked with too small a limit to be charged for what it returned -/
  | shortage
      (passed : j.refusal?
        (Unsigned.subSat j.transaction.gasLimit (j.outcome program v).gasUsed)
        (j.handedBack program v) = none)
      (short : ¬codeCost (j.outcome program v).output ≤ (j.handedBack program v).gasLeft)
      (error : e.error = some (.failed (.outOfGas "CONTRACT DATA COST"
        (codeCost (j.outcome program v).output) (j.handedBack program v).gasLeft)))
      (recorded : e.result.fault = some fault) (deposit : e.depositRefused = false)
  /-- the failure is reported, and the account is that of any failed run -/
  | failure
      (passed : j.refusal?
        (Unsigned.subSat j.transaction.gasLimit (j.outcome program v).gasUsed)
        (j.handedBack program v) = none)
      (paid : codeCost (j.outcome program v).output ≤ (j.handedBack program v).gasLeft)
      (error : e.error = some (.failed fault)) (recorded : e.result.fault = some fault)
      (deposit : e.depositRefused = false)
      (account : e.outer.hasAccount j.newAddress = true ↔
        (j.context.interpreter program v).2.pop.hasAccount j.newAddress = true ∨
          j.newAddress = j.transaction.sender ∨ j.newAddress = j.context.feeRecipient)
      (contained : j.context.interpreter.Contained program v →
        (e.outer.hasAccount j.newAddress = true ↔ outer.hasAccount j.newAddress = true ∨
          j.newAddress = j.transaction.sender ∨ j.newAddress = j.context.feeRecipient))

/-- Settling leaves the error, the fault and the refusal of the code as they are. -/
theorem report_finalize (hchain : j.isLocal = false) (e : Execution) :
    (j.finalize e).error = e.error ∧ (j.finalize e).result.fault = e.result.fault ∧
      (j.finalize e).depositRefused = e.depositRefused := by
  rw [finalize_on_chain hchain]
  exact ⟨rfl, fault_creditDestroyed _, rfl⟩

/-- Init code that fails without a revert and within the gas limit is reported as a refusal of what
it has returned, as a charge that could not be made for it, or as itself. -/
theorem reported_of_fault (hchain : j.isLocal = false)
    (hcreation : j.transaction.isCreation = true)
    (haccepted : (j.execute outer senders).accepted = true)
    (hcall : j.interpreterCall? outer senders = some (program, v)) {fault : RunFault}
    (hfault : (j.outcome program v).fault = some fault)
    (hstanding : (j.outcome program v).reverted = false)
    (hused : (j.outcome program v).gasUsed ≤ j.transaction.gasLimit) :
    j.Reported outer program v fault (j.execute outer senders) := by
  obtain ⟨p, h, hplayed⟩ := returned_of_call hchain hcreation hcall hstanding hused
  have hresult := h.result
  obtain ⟨herror, hrecorded, hdeposit⟩ := report_finalize hchain (close (j.wrapUp p))
  rw [execute_of_accepted haccepted, hplayed]
  cases hrefusal : j.refusal? p.execution.gasLeft p.program with
  | some refusal =>
      have hclosed := close_wrapUp_of_refusal h hrefusal
      have haccount := hasAccount_finalize (e := close (j.wrapUp p)) hchain (by rw [hclosed])
        (by rw [hclosed]; exact (RunResult.quiet_discard _).output [])
        (by rw [hclosed]; exact h.prepaid) j.newAddress
      have hkept : (close (j.wrapUp p)).outer.hasAccount j.newAddress = true := by
        rw [hclosed]
        exact j.hasAccount_kept _
      rw [h.gasLeft, h.given] at hrefusal
      refine .refusal refusal hrefusal (herror.trans ?_) (hrecorded.trans ?_) (hdeposit.trans ?_)
        (haccount.mpr (.inl hkept))
      · rw [hclosed]
      · rw [hclosed]
        rfl
      · rw [hclosed]
  | none =>
      have hpassed := hrefusal
      rw [h.gasLeft, h.given] at hpassed
      by_cases hpaid : codeCost p.program.result.output ≤ p.program.gasLeft
      · have hclosed := close_wrapUp_of_fault h hrefusal hpaid (hresult ▸ hfault)
        have haccount := hasAccount_finalize (e := close (j.wrapUp p)) hchain (by rw [hclosed])
          (by rw [hclosed]; exact RunResult.quiet_discard _)
          (by rw [hclosed]; exact h.prepaid) j.newAddress
        have houter : (close (j.wrapUp p)).outer = (j.context.interpreter program v).2.pop := by
          rw [hclosed]
          exact h.outer
        rw [houter] at haccount
        rw [hresult, h.given] at hpaid
        refine .failure hpassed hpaid (herror.trans ?_) (hrecorded.trans ?_) (hdeposit.trans ?_)
          haccount fun hcontained => haccount.trans ?_
        · rw [hclosed]
        · rw [hclosed, hresult, RunResult.fault_discard, fault_chargedResult, hfault]
        · rw [hclosed]
          exact h.depositRefused
        · rw [hasAccount_paid (pop_of_contained hchain hcall hcontained)]
          grind
      · have hclosed := close_wrapUp_of_unpaid h hrefusal hpaid
        rw [hresult, h.given] at hpaid
        refine .shortage hpassed hpaid (herror.trans ?_) (hrecorded.trans ?_) (hdeposit.trans ?_)
        · rw [hclosed, hresult, h.given]
        · rw [hclosed, hresult, hfault]
          exact hfault
        · rw [hclosed]
          exact h.depositRefused

/-- A creation whose init code returns ten bytes and fails. -/
def failingCreation (gasLimit : Gas) : Job :=
  sample { gasPrice := 2, gasLimit, value := 5, data := [1] }
    [([1],
      [ .act { name := "RETURN" } (.returnData (List.replicate 10 254)),
        .act { name := "FAIL" } (.fail (.fixed (.runtime "bad jump")) true) ])]

/-- With gas for the ten bytes the failure is reported, and there is no account. -/
theorem reported_failingCreation :
    ((failingCreation 60000).execute View.sample (SenderCache.ofCapacity 1)).error =
        some (.failed (.runtime "bad jump")) ∧
      ((failingCreation 60000).execute View.sample (SenderCache.ofCapacity 1)).result.fault =
        some (.runtime "bad jump") ∧
      ((failingCreation 60000).execute View.sample (SenderCache.ofCapacity 1)).outer.hasAccount
        (failingCreation 60000).newAddress = false := by
  have hfacts :
      ((failingCreation 60000).execute View.sample (SenderCache.ofCapacity 1)).accepted = true ∧
        ((failingCreation 60000).interpreterCall? View.sample
          (SenderCache.ofCapacity 1)).isSome = true ∧
        ∀ call ∈ (failingCreation 60000).interpreterCall? View.sample (SenderCache.ofCapacity 1),
          ((failingCreation 60000).outcome call.1 call.2).fault = some (.runtime "bad jump") ∧
            ((failingCreation 60000).outcome call.1 call.2).reverted = false ∧
            ((failingCreation 60000).outcome call.1 call.2).gasUsed ≤
              (failingCreation 60000).transaction.gasLimit ∧
            (failingCreation 60000).refusal?
              (Unsigned.subSat (failingCreation 60000).transaction.gasLimit
                ((failingCreation 60000).outcome call.1 call.2).gasUsed)
              ((failingCreation 60000).handedBack call.1 call.2) = none ∧
            codeCost ((failingCreation 60000).outcome call.1 call.2).output ≤
              ((failingCreation 60000).handedBack call.1 call.2).gasLeft := by
    decide +kernel
  have haddress : View.sample.hasAccount (failingCreation 60000).newAddress = false ∧
      (failingCreation 60000).newAddress ≠ (failingCreation 60000).transaction.sender ∧
      (failingCreation 60000).newAddress ≠ (failingCreation 60000).context.feeRecipient := by
    decide +kernel
  obtain ⟨haccepted, hcalled, hcalls⟩ := hfacts
  obtain ⟨⟨program, v⟩, hcall⟩ := Option.isSome_iff_exists.mp hcalled
  obtain ⟨hfault, hstanding, hused, hpassed, hpaid⟩ := hcalls (program, v) hcall
  obtain ⟨hmissing, hsender, hrecipient⟩ := haddress
  cases reported_of_fault rfl rfl haccepted hcall hfault hstanding hused with
  | refusal refusal hrefused => exact absurd (hrefused.symm.trans hpassed) (Option.some_ne_none _)
  | shortage _ hshort => exact absurd hpaid hshort
  | failure _ _ herror hrecorded _ _ hcontained =>
      have haccount := hcontained (Interpreter.scripted_contained _ program v)
      refine ⟨herror, hrecorded, ?_⟩
      rw [← Bool.not_eq_true, haccount, hmissing]
      simp [hsender, hrecipient]

/-- With less gas the failure is replaced by the refusal of the ten bytes, and an account is left
where none was. -/
theorem failingCreation_refused :
    ((failingCreation 54000).execute View.sample (SenderCache.ofCapacity 1)).accepted = true ∧
      ((failingCreation 54000).interpreterCall? View.sample (SenderCache.ofCapacity 1)).any
        (fun call =>
          ((failingCreation 54000).outcome call.1 call.2).fault = some (.runtime "bad jump") &&
            !((failingCreation 54000).outcome call.1 call.2).reverted &&
            ((failingCreation 54000).outcome call.1 call.2).gasUsed ≤
              (failingCreation 54000).transaction.gasLimit) = true ∧
      View.sample.hasAccount (failingCreation 54000).newAddress = false ∧
      (failingCreation 54000).newAddress ≠ (failingCreation 54000).context.feeRecipient ∧
      ((failingCreation 54000).execute View.sample (SenderCache.ofCapacity 1)).error =
        some (.failed (.notEnoughGas "No gas to return just created contract" 2000 932)) ∧
      ((failingCreation 54000).execute View.sample (SenderCache.ofCapacity 1)).result.fault ≠
        some (.runtime "bad jump") ∧
      ((failingCreation 54000).execute View.sample (SenderCache.ofCapacity 1)).depositRefused =
        true ∧
      ((failingCreation 54000).execute View.sample (SenderCache.ofCapacity 1)).outer.hasAccount
        (failingCreation 54000).newAddress = true := by
  decide +kernel

end Job

end LedgerExec
