import LedgerExec.Proofs.Execution.Overspending
import LedgerExec.Proofs.State.Balances
set_option autoImplicit false

/-!
# Depositing the code of a contract

When the init code of a contract comes back without a revert, what it returned is to become
the code of the contract.  It is refused if the gas that is left does not pay for it, or else
if it is too large (`Job.refusal?`); otherwise it is charged to the program as well, which
can fail only if the program was invoked with a smaller limit than that of the transaction.
Whether the program had failed is asked after all this.

So there are four ends, and each of them is one equation on the execution
(`close_wrapUp_of_refusal` and the three after it).  `returned_of_call` brings a creation on
chain to the point where they start.
-/

namespace LedgerExec

/-- What a failed run drops is not the failure. -/
@[simp] theorem RunResult.fault_discard (r : RunResult) : r.discard.fault = r.fault := rfl

namespace Job

variable {j : Job} {outer : View} {senders : SenderCache} {program : Program} {v : View}
  {p : Play}

/-! ## The check -/

/-- The charge for depositing code. -/
def codeCost (code : Bytes) : Gas := Gas.mul Gas.perCodeByte (Unsigned.clamp 64 code.length)

/-- Why the code that a program returns is refused, if it is. -/
def refusal? (j : Job) (left : Gas) (p : Program) : Option RunFault :=
  if left < codeCost p.result.output then
    some (p.notEnoughGas "No gas to return just created contract" (codeCost p.result.output))
  else if j.context.chain.limits.maxContractSize.toNat < p.result.output.length then
    some (.contractTooLarge j.context.chain.limits.maxContractSize.toNat p.result.output.length)
  else none

theorem refusal?_eq_none_iff {left : Gas} {p : Program} :
    j.refusal? left p = none ↔ ¬j.Refuses left p.result.output := by
  unfold refusal?
  split
  · rename_i hshort
    exact iff_of_false (Option.some_ne_none _) (not_not_intro (.inl hshort))
  · rename_i hcovered
    split
    · rename_i hlarge
      exact iff_of_false (Option.some_ne_none _) (not_not_intro (.inr hlarge))
    · rename_i hsmall
      exact iff_of_true rfl (not_or.mpr ⟨hcovered, hsmall⟩)

/-- The result of a program whose code is refused. -/
def refusedResult (r : RunResult) (refusal : RunFault) : RunResult :=
  { (r.fail refusal).discard with output := [] }

/-- The result of a program that is charged for its code. -/
def chargedResult (r : RunResult) : RunResult := r.spend (codeCost r.output)

/-! The charge changes the gas alone; two results as a whole are not compared. -/

@[simp] theorem fault_chargedResult (r : RunResult) : (chargedResult r).fault = r.fault := by
  cases r
  rfl

@[simp] theorem output_chargedResult (r : RunResult) : (chargedResult r).output = r.output := by
  cases r
  rfl

@[simp] theorem reverted_chargedResult (r : RunResult) :
    (chargedResult r).reverted = r.reverted := by
  cases r
  rfl

@[simp] theorem destroyed_chargedResult (r : RunResult) :
    (chargedResult r).destroyed = r.destroyed := by
  cases r
  rfl

@[simp] theorem codeChanges_chargedResult (r : RunResult) :
    (chargedResult r).codeChanges = r.codeChanges := by
  cases r
  rfl

theorem deposit_of_refusal {refusal : RunFault}
    (hrefusal : j.refusal? p.execution.gasLeft p.program = some refusal) (address : Address) :
    j.deposit p address =
      { p with
        execution := { p.execution with depositRefused := true }
        program := (p.program.fail refusal).setOutput [] } := by
  unfold refusal? at hrefusal
  simp only [deposit]
  split at hrefusal
  · rename_i hshort
    obtain rfl := Option.some.inj hrefusal
    exact if_pos hshort
  · rename_i hcovered
    split at hrefusal
    · rename_i hlarge
      obtain rfl := Option.some.inj hrefusal
      exact (if_neg hcovered).trans (if_pos hlarge)
    · exact absurd hrefusal.symm (Option.some_ne_none _)

/-- Code that is not refused is paid for with the gas that is left. -/
theorem sub_of_passed (hpassed : j.refusal? p.execution.gasLeft p.program = none) :
    Gas.sub p.execution.gasLeft (codeCost p.program.result.output) =
      .ok (Unsigned.subSat p.execution.gasLeft (codeCost p.program.result.output)) := by
  obtain ⟨hcovered, -⟩ := not_or.mp (refusal?_eq_none_iff.mp hpassed)
  have hcost := Nat.le_of_not_lt hcovered
  exact Gas.sub_eq_ok_iff.mpr (Nat.sub_add_cancel hcost)

theorem deposit_of_unpaid (hpassed : j.refusal? p.execution.gasLeft p.program = none)
    (hshort : ¬codeCost p.program.result.output ≤ p.program.gasLeft) (address : Address) :
    j.deposit p address =
      { p with
        execution :=
          { p.execution with
            gasLeft := Unsigned.subSat p.execution.gasLeft (codeCost p.program.result.output) }
        outcome := .error (.outOfGas "CONTRACT DATA COST" (codeCost p.program.result.output)
          p.program.gasLeft) } := by
  obtain ⟨hcovered, hsmall⟩ := not_or.mp (refusal?_eq_none_iff.mp hpassed)
  have hcharge : p.program.charge (codeCost p.program.result.output) "CONTRACT DATA COST" =
      .error (.outOfGas "CONTRACT DATA COST" (codeCost p.program.result.output)
        p.program.gasLeft) :=
    Program.charge_eq_error_iff.mpr ⟨hshort, rfl⟩
  have hsub := sub_of_passed hpassed
  simp only [codeCost] at hcharge hsub ⊢
  simp only [deposit, if_neg hcovered, if_neg hsmall, hsub, hcharge]

/-- If the program can be charged for its code, too, the code is saved. -/
theorem deposit_of_paid (hpassed : j.refusal? p.execution.gasLeft p.program = none)
    (hpaid : codeCost p.program.result.output ≤ p.program.gasLeft) (address : Address) :
    j.deposit p address =
      { execution :=
          { p.execution with
            inner := (p.execution.inside.saveCode address p.program.result.output).top
            gasLeft := Unsigned.subSat p.execution.gasLeft (codeCost p.program.result.output) }
        program := { p.program with result := chargedResult p.program.result } } := by
  obtain ⟨hcovered, hsmall⟩ := not_or.mp (refusal?_eq_none_iff.mp hpassed)
  have hcharge : p.program.charge (codeCost p.program.result.output) "CONTRACT DATA COST" =
      .ok { p.program with result := chargedResult p.program.result } :=
    Program.charge_eq_ok_iff.mpr ⟨hpaid, rfl⟩
  have hsub := sub_of_passed hpassed
  simp only [codeCost] at hcharge hsub ⊢
  simp only [deposit, if_neg hcovered, if_neg hsmall, hsub, hcharge, output_chargedResult]
  rfl

/-- The program of a call as the interpreter gives it back. -/
def handedBack (j : Job) (program : Program) (v : View) : Program :=
  program.giveBack (j.context.interpreter program v).1

/-- Where playing stands when the interpreter has returned from the init code of a creation: there
was no revert, and no more gas was used than there is. -/
structure Returned (j : Job) (program : Program) (v : View) (p : Play) : Prop where
  outcome : p.outcome = .ok ()
  given : p.program = j.handedBack program v
  inner : p.execution.inner = (j.context.interpreter program v).2.top
  outer : p.execution.outer = (j.context.interpreter program v).2.pop
  error : p.execution.error = none
  prepaid : p.execution.prepaid = true
  newContract : p.execution.newContract = some j.newAddress
  depositRefused : p.execution.depositRefused = false
  standing : p.program.result.reverted = false
  gasLeft : p.execution.gasLeft =
    Unsigned.subSat j.transaction.gasLimit (j.outcome program v).gasUsed

theorem Returned.result (h : j.Returned program v p) : p.program.result = j.outcome program v := by
  rw [h.given]
  rfl

/-- Playing goes on to the deposit when there is gas left, or just none. -/
theorem afterInterpreter_of_covered {left : Gas}
    (hsub : Gas.sub j.transaction.gasLimit p.program.result.gasUsed = .ok left) :
    j.afterInterpreter p = j.wrapUp { p with execution := { p.execution with gasLeft := left } } := by
  simp only [afterInterpreter, hsub]

/-- A creation on chain comes to this point with its call of the interpreter. -/
theorem returned_of_call (hchain : j.isLocal = false)
    (hcreation : j.transaction.isCreation = true)
    (hcall : j.interpreterCall? outer senders = some (program, v))
    (hstanding : (j.outcome program v).reverted = false)
    (hused : (j.outcome program v).gasUsed ≤ j.transaction.gasLimit) :
    ∃ p, j.Returned program v p ∧
      j.played outer (j.validate outer senders).2 = close (j.wrapUp p) := by
  obtain ⟨paid, hprepared⟩ := prepared_of_call hchain hcall
  obtain ⟨hruns, rfl, started, hstarted, hcharge⟩ := handed?_eq_some_iff.mp hcall
  generalize hrun : j.run { outer, senders := (j.validate outer senders).2 } = e at *
  have hsum := Nat.sub_add_cancel hused
  have hsub : Gas.sub j.transaction.gasLimit (j.outcome program e.inside).gasUsed =
      .ok (Unsigned.subSat j.transaction.gasLimit (j.outcome program e.inside).gasUsed) :=
    Gas.sub_eq_ok_iff.mpr hsum
  have herror := hprepared.error_eq_none hstarted
  refine ⟨
    { execution :=
        { e.setInside (j.context.interpreter program e.inside).2 with
          gasLeft := Unsigned.subSat j.transaction.gasLimit (j.outcome program e.inside).gasUsed }
      program := j.handedBack program e.inside }, ?_, ?_⟩
  · exact
      { outcome := rfl
        given := rfl
        inner := rfl
        outer := rfl
        error := herror
        prepaid := by
          change e.prepaid = true
          rw [hprepared.prepaid, hchain]
          rfl
        newContract := hprepared.named (by simp [hstarted]) hcreation
        depositRefused := hprepared.depositRefused
        standing := hstanding
        gasLeft := rfl }
  · rw [played, hrun, complete, hstarted]
    simp only [play, hcharge, interpret, hruns, if_true]
    exact congrArg close (afterInterpreter_of_covered hsub)

/-- Below the view that a contained interpreter gives back is the one that was paid from. -/
theorem pop_of_contained (hchain : j.isLocal = false)
    (hcall : j.interpreterCall? outer senders = some (program, v))
    (hcontained : j.context.interpreter.Contained program v) :
    (outer.raiseNonce j.transaction.sender).debit j.transaction.sender j.prepayment =
      .ok (j.context.interpreter program v).2.pop := by
  obtain ⟨-, rfl, -⟩ := handed?_eq_some_iff.mp hcall
  rcases run_cases hchain outer (j.validate outer senders).2 with
    ⟨fault, -, hrun⟩ | ⟨paid, hdebit, hrun⟩
  · rw [interpreterCall?, hrun] at hcall
    simp [handed?] at hcall
  · have hprepared := prepared_perform (j.stable_true paid) (j.validate outer senders).2
    rw [← hrun] at hprepared
    have hbelow := hcontained.trans (Execution.below_inside _)
    rw [View.pop_of_below hbelow, hprepared.outer]
    exact hdebit

theorem Returned.depositNew (h : j.Returned program v p) :
    j.depositNew p = j.deposit p j.newAddress := by
  simp [Job.depositNew, h.newContract, h.standing]

/-! ## The ends -/

/-- A run that a fault has stopped is forgotten whole, if no code was refused in it. -/
theorem close_of_unrefused {fault : RunFault} (houtcome : p.outcome = .error fault)
    (hunrefused : p.execution.depositRefused = false) :
    close p =
      { p.execution with
        inner := {}
        gasLeft := 0
        error := some (.failed fault)
        result :=
          if p.program.result.fault.isSome then p.program.result
          else p.program.result.fail fault
        program := some p.program } := by
  simp [close, houtcome, keepRefused, abort, hunrefused]

/-- A program that has neither failed nor reverted stands. -/
theorem conclude_of_clean (hclean : p.program.result.fault = none)
    (hstanding : p.program.result.reverted = false) : conclude p = p := by
  simp [conclude, hclean, hstanding]

/-- Refused code is forgotten with the run, the account that was to have it is not. -/
theorem close_wrapUp_of_refusal (h : j.Returned program v p) {refusal : RunFault}
    (hrefusal : j.refusal? p.execution.gasLeft p.program = some refusal) :
    close (j.wrapUp p) =
      { p.execution with
        inner := {}
        outer := j.kept p.execution.outer true
        depositRefused := true
        gasLeft := 0
        error := some (.failed refusal)
        result := refusedResult p.program.result refusal
        program := some
          { p.program with result := refusedResult p.program.result refusal } } := by
  have hwrapped : j.wrapUp p =
      { execution := { p.execution with depositRefused := true }.rollback
        program := { p.program with result := refusedResult p.program.result refusal }
        outcome := .error refusal } := by
    simp only [wrapUp, h.depositNew, deposit_of_refusal hrefusal, h.outcome]
    exact conclude_of_fault refusal rfl
  simp only [hwrapped, close]
  exact keepRefused_eq (e := abort _ refusal) rfl fun _ => h.newContract

/-- A program that can not be charged for its code is stopped; its result stays as it is, and if
it had a fault, that too. -/
theorem close_wrapUp_of_unpaid (h : j.Returned program v p)
    (hpassed : j.refusal? p.execution.gasLeft p.program = none)
    (hshort : ¬codeCost p.program.result.output ≤ p.program.gasLeft) :
    close (j.wrapUp p) =
      { p.execution with
        inner := {}
        gasLeft := 0
        error := some (.failed (.outOfGas "CONTRACT DATA COST"
          (codeCost p.program.result.output) p.program.gasLeft))
        result :=
          if p.program.result.fault.isSome then p.program.result
          else p.program.result.fail (.outOfGas "CONTRACT DATA COST"
            (codeCost p.program.result.output) p.program.gasLeft)
        program := some p.program } := by
  simp only [wrapUp, h.depositNew, deposit_of_unpaid hpassed hshort]
  exact close_of_unrefused rfl h.depositRefused

/-- A program that has failed is forgotten, although its code has been paid for. -/
theorem close_wrapUp_of_fault (h : j.Returned program v p)
    (hpassed : j.refusal? p.execution.gasLeft p.program = none)
    (hpaid : codeCost p.program.result.output ≤ p.program.gasLeft) {fault : RunFault}
    (hfault : p.program.result.fault = some fault) :
    close (j.wrapUp p) =
      { p.execution with
        inner := {}
        gasLeft := 0
        error := some (.failed fault)
        result := (chargedResult p.program.result).discard
        program := some
          { p.program with
            result := (chargedResult p.program.result).discard } } := by
  have hcharged : (chargedResult p.program.result).fault = some fault :=
    (fault_chargedResult _).trans hfault
  have hwrapped : j.wrapUp p =
      { execution :=
          { p.execution with
            gasLeft :=
              Unsigned.subSat p.execution.gasLeft (codeCost p.program.result.output) }.rollback
        program :=
          { p.program with
            result := (chargedResult p.program.result).discard }
        outcome := .error fault } := by
    simp only [wrapUp, h.depositNew, deposit_of_paid hpassed hpaid]
    exact conclude_of_fault fault hcharged
  have hkept : (chargedResult p.program.result).discard.fault = some fault :=
    (RunResult.fault_discard _).trans hcharged
  rw [hwrapped]
  refine (close_of_unrefused rfl ?_).trans ?_
  · exact h.depositRefused
  · simp only [hkept, Option.isSome_some, if_true]
    rfl

/-- The code of a program that has not failed is saved, and the run is committed. -/
theorem close_wrapUp_of_clean (h : j.Returned program v p)
    (hpassed : j.refusal? p.execution.gasLeft p.program = none)
    (hpaid : codeCost p.program.result.output ≤ p.program.gasLeft)
    (hclean : p.program.result.fault = none) :
    close (j.wrapUp p) =
      { p.execution with
        inner := {}
        outer := (p.execution.inside.saveCode j.newAddress p.program.result.output).commit.pop
        gasLeft := Unsigned.subSat p.execution.gasLeft (codeCost p.program.result.output)
        result := chargedResult p.program.result
        program := some
          { p.program with
            result := chargedResult p.program.result } } := by
  have hwrapped : j.wrapUp p =
      { execution :=
          { p.execution with
            inner := (p.execution.inside.saveCode j.newAddress p.program.result.output).top
            gasLeft := Unsigned.subSat p.execution.gasLeft (codeCost p.program.result.output) }
        program := { p.program with result := chargedResult p.program.result } } := by
    simp only [wrapUp, h.depositNew, deposit_of_paid hpassed hpaid]
    exact conclude_of_clean ((fault_chargedResult _).trans hclean)
      ((reverted_chargedResult _).trans h.standing)
  rw [hwrapped]
  rfl

/-! ## The account that is left -/

/-- The account of a refused contract is the one that was there, or a new one. -/
theorem account?_kept (j : Job) (paid : View) :
    (j.kept paid true).account? j.newAddress = some (paid.accountOrFresh j.newAddress) := by
  unfold kept View.accountOrFresh View.hasAccount
  cases hthere : paid.account? j.newAddress <;> simp [View.create, hthere]

theorem word_kept (j : Job) (paid : View) (key : Word) :
    (j.kept paid true).word j.newAddress key =
      if paid.hasAccount j.newAddress then paid.word j.newAddress key else Octets.zero := by
  unfold kept
  cases paid.hasAccount j.newAddress <;> simp [View.create]

theorem hasAccount_kept (j : Job) (paid : View) :
    (j.kept paid true).hasAccount j.newAddress = true := by
  rw [View.hasAccount, account?_kept, Option.isSome_some]

/-- Settling leaves an account that it neither pays nor removes alone, but for code that it saves. -/
theorem account?_finalize (hchain : j.isLocal = false) {e : Execution} (hclean : e.inner = {})
    {a : Address} (hsender : a ≠ j.transaction.sender) (hrecipient : a ≠ j.context.feeRecipient)
    (hspared : a ∉ e.result.destroyed) :
    (j.finalize e).outer.account? a = (saveChanges e.result e.outer).account? a := by
  have hunpaid : (if e.prepaid then
      j.payOut (j.settlement (creditDestroyed e.result) e.gasLeft) e.outer
    else e.outer).account? a = e.outer.account? a := by
    split
    · exact account?_payOut _ _ hsender hrecipient
    · rfl
  rw [finalize_of_clean hchain hclean, account?_removeDestroyed, destroyed_creditDestroyed,
    if_neg hspared, paidOut, account?_saveChanges, account?_saveChanges,
    codeChanges_creditDestroyed, View.accountOrFresh, hunpaid, View.accountOrFresh]

end Job

end LedgerExec
