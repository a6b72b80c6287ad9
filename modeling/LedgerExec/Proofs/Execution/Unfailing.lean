import LedgerExec.Proofs.Calls.Estimates
import LedgerExec.Proofs.Execution.Deployments
import LedgerExec.Proofs.Execution.Touches
set_option autoImplicit false

/-!
# Branches that are not taken

On its way a transaction on chain is asked for the same amounts again.  Validation has
compared the money with the whole cost, and then the price of the limits is debited and the
value transferred; it has compared the limit with the intrinsic cost, and then the program
is charged for it; the gas that is left pays for the code of a new contract, and then the
program is charged for the same code.  Each of these can fail in the code.
`Job.Unfailing` says that none does.

Three relations carry this from one form of an amount to the next.  The sender keeps at
least the value when it has paid (`Job.exists_paid`), and nothing that is entered before the
value moves takes it away, unless the new contract is the sender itself
(`exists_transfer_staged`).  And a program that is invoked for the transaction knows its
whole limit, so it has no less gas than the execution counts as left (`Metered.affords`).
-/

namespace LedgerExec

namespace Job

variable {j : Job} {outer paid : View} {senders : SenderCache} {I : View → Prop}
  {e : Execution} {p : Play}

/-! ## Money -/

theorem prepay_of_debit
    (hdebit : (e.outer.raiseNonce j.transaction.sender).debit j.transaction.sender j.prepayment =
      .ok paid) : j.prepay e = { e with outer := paid, prepaid := true } := by
  simp only [prepay, hdebit]

/-- A sender that has the value still has it when it is to move. -/
theorem exists_transfer_staged (houter : e.outer = paid) (hinner : e.inner = {})
    (hnew : j.transaction.isCreation = true → j.newAddress ≠ j.transaction.sender)
    (hvalue : j.transaction.payload.value.toNat ≤ (paid.balance j.transaction.sender).toNat)
    (target : Address) :
    ∃ w, (j.staged e (j.dispatch paid)).inside.transfer j.transaction.sender target
      j.transaction.payload.value = .ok w := by
  have hstanding := (entered_staged (j := j) houter hinner).sameStanding
  apply View.exists_transfer
  rw [(hstanding j.transaction.sender).1]
  cases hcreates : j.transaction.isCreation with
  | false => rwa [cleared_of_call hcreates]
  | true =>
      rw [cleared_of_creation hcreates, View.balance_create, if_neg (hnew hcreates).symm]
      exact hvalue

theorem error_moveValue_of_transfer {target : Address} {w : View}
    (htransfer : e.inside.transfer j.transaction.sender target j.transaction.payload.value =
      .ok w) : (j.moveValue e target).error = e.error := by
  unfold moveValue
  split
  · rfl
  · rw [htransfer]
    rfl

/-! ## Gas -/

/-- A program that has charged nothing can pay the intrinsic cost. -/
theorem exists_charge_basic (hmaker : j.context.invocation = Invocation.ofTransaction)
    (hcost : j.basicCost.toNat ≤ j.transaction.gasLimit.toNat) (hprepared : j.Prepared paid I e)
    {program : Program} (hprogram : e.program = some program) :
    ∃ charged, program.charge j.basicCost "TRANSACTION COST" = .ok charged := by
  have hlimit := gasLimit_le_of_invoked hmaker hprepared hprogram
  have hfresh := (hprepared.program program hprogram).1
  have hcovered : j.basicCost ≤ program.gasLeft := by
    rw [Unsigned.le_iff, Program.gasLeft, Unsigned.toNat_subSat, hfresh]
    exact Nat.le_trans hcost hlimit
  exact ⟨_, Program.charge_eq_ok_iff.mpr ⟨hcovered, rfl⟩⟩

/-- The deposit can refuse the code, but it does not stop the run. -/
theorem outcome_depositNew (houtcome : p.outcome = .ok ())
    (haffords : p.execution.gasLeft ≤ p.program.gasLeft) :
    (j.depositNew p).outcome = .ok () := by
  have hdeposited := deposited_depositNew j p
  generalize j.depositNew p = deposited at hdeposited ⊢
  cases hdeposited with
  | skipped => exact houtcome
  | refused => exact houtcome
  | unpaid _ cost left hafforded fault hcharge =>
      have hshort := (Program.charge_eq_error_iff.mp hcharge).1
      rw [Unsigned.le_iff] at hshort haffords
      omega
  | stored => rfl

/-- Playing when the interpreter has returned and the gas that it leaves is known. -/
def returned (j : Job) (e : Execution) (charged : Program) (left : Gas) : Play :=
  let p := j.interpret e charged
  { p with execution := { p.execution with gasLeft := left } }

/-- The gas of a program that has been played, and of the code that it returns. -/
theorem returned_affords (hmaker : j.context.invocation = Invocation.ofTransaction)
    (hcost : j.basicCost.toNat ≤ j.transaction.gasLimit.toNat) (hprepared : j.Prepared paid I e)
    {program charged : Program} (hprogram : e.program = some program)
    (hcharge : program.charge j.basicCost "TRANSACTION COST" = .ok charged)
    (hinterpreter : ∀ program v, j.handed? e = some (program, v) →
      (j.outcome program v).gasUsed ≤ j.transaction.gasLimit) :
    ∃ left,
      Gas.sub j.transaction.gasLimit (j.interpret e charged).program.result.gasUsed = .ok left ∧
      (j.returned e charged left).outcome = .ok () ∧
      left ≤ (j.returned e charged left).program.gasLeft := by
  have herror := hprepared.error_eq_none hprogram
  obtain ⟨hmetered, hused⟩ :=
    metered_interpret hmaker hcost hprepared herror hprogram hcharge hinterpreter
  have hsum := Nat.sub_add_cancel hused
  have hcounted := Nat.add_sub_of_le hused
  have hsub : Gas.sub j.transaction.gasLimit (j.interpret e charged).program.result.gasUsed =
      .ok (Unsigned.subSat j.transaction.gasLimit
        (j.interpret e charged).program.result.gasUsed) :=
    Gas.sub_eq_ok_iff.mpr hsum
  have hreturned : j.Metered (j.returned e charged (Unsigned.subSat j.transaction.gasLimit
      (j.interpret e charged).program.result.gasUsed)) := { hmetered with }
  exact ⟨_, hsub, hreturned.outcome, hreturned.affords hcounted⟩

/-! ## The whole -/

/-- No amount is refused that has been approved in another form. -/
structure Unfailing (j : Job) (e : Execution) : Prop where
  /-- the price of both limits is there -/
  prepays : ∃ paid, j.prepay e = { e with outer := paid, prepaid := true }
  /-- the value is there, whatever has been written before it moves -/
  moves : ∃ w,
    (j.staged (j.prepay e) (j.dispatch (j.prepay e).outer)).inside.transfer j.transaction.sender
      (j.dispatch (j.prepay e).outer).address j.transaction.payload.value = .ok w
  /-- only a built-in contract without the gas that it asks for stops the first phase -/
  stops : ∀ error, (j.run e).error = some error → ∃ block address required used left,
    error = .builtInOutOfGas block address required used left
  /-- a program can pay the intrinsic cost -/
  charges : ∀ program, (j.run e).program = some program →
    ∃ charged, program.charge j.basicCost "TRANSACTION COST" = .ok charged
  /-- and when its interpreter leaves gas, or just none, the code that it returns, too, unless it is
  refused -/
  deposits :
    (∀ program v, j.handed? (j.run e) = some (program, v) →
      (j.outcome program v).gasUsed ≤ j.transaction.gasLimit) →
    ∀ program charged, (j.run e).program = some program →
      program.charge j.basicCost "TRANSACTION COST" = .ok charged →
      ∃ left,
        Gas.sub j.transaction.gasLimit
          (j.interpret (j.run e) charged).program.result.gasUsed = .ok left ∧
        (j.refusal? left (j.returned (j.run e) charged left).program = none →
          (∃ rest, Gas.sub left
            (codeCost (j.returned (j.run e) charged left).program.result.output) = .ok rest) ∧
          ∃ paying, (j.returned (j.run e) charged left).program.charge
            (codeCost (j.returned (j.run e) charged left).program.result.output)
            "CONTRACT DATA COST" = .ok paying) ∧
        (j.depositNew (j.returned (j.run e) charged left)).outcome = .ok ()

/-- An accepted transaction on chain that is not free fails at none of these checks, if its sender
has less than the greatest balance and is not the contract that it creates. -/
theorem unfailing_of_accepted (hchain : j.isLocal = false)
    (hmaker : j.context.invocation = Invocation.ofTransaction)
    (hsound : senders.Sound [j.transaction]) (hcost : 0 < j.basicCost)
    (hbalance : (outer.balance j.transaction.sender).toNat < 2 ^ 128 - 1)
    (hnew : j.transaction.isCreation = true → j.newAddress ≠ j.transaction.sender)
    (haccepted : (j.execute outer senders).accepted = true) :
    j.Unfailing { outer, senders := (j.validate outer senders).2 } := by
  have hfunds := exactTotal_le_of_accepted hchain hsound List.mem_cons_self hbalance haccepted
  rw [exactTotal_of_basicCost hcost] at hfunds
  have hbasic := basicCost_le_of_accepted hchain haccepted
  obtain ⟨paid, hdebit, -, hvalue⟩ := exists_paid hfunds
  generalize (j.validate outer senders).2 = cached
  have hprepay : j.prepay { outer, senders := cached } =
      { outer := paid, senders := cached, prepaid := true } := prepay_of_debit hdebit
  have hrun := run_of_paid hchain hdebit cached
  have hprepared := prepared_perform (j.stable_true paid) cached
  rw [← hrun] at hprepared
  obtain ⟨w, htransfer⟩ := exists_transfer_staged (j := j)
    (e := { outer := paid, senders := cached, prepaid := true }) rfl rfl hnew hvalue
    (j.dispatch paid).address
  exact
    { prepays := ⟨paid, hprepay⟩
      moves := by
        rw [hprepay]
        exact ⟨w, htransfer⟩
      stops := by
        intro error herror
        rw [hrun, hchain] at herror
        rcases j.perform_cases { outer := paid, senders := cached, prepaid := true } with
          ⟨-, block, address, required, used, left, hperform⟩ | ⟨-, hperform⟩
        · refine ⟨block, address, required, used, left, ?_⟩
          exact (Option.some.inj ((congrArg Execution.error hperform).symm.trans herror)).symm
        · have hnone := (congrArg Execution.error hperform).trans
            ((error_moveValue_of_transfer htransfer).trans (j.error_staged _ _))
          exact absurd (herror.symm.trans hnone) (Option.some_ne_none _)
      charges := fun program hprogram => exists_charge_basic hmaker hbasic hprepared hprogram
      deposits := by
        intro hinterpreter program charged hprogram hcharge
        obtain ⟨left, hsub, houtcome, haffords⟩ :=
          returned_affords hmaker hbasic hprepared hprogram hcharge hinterpreter
        refine ⟨left, hsub, fun hpassed => ⟨⟨_, sub_of_passed hpassed⟩, ?_⟩,
          outcome_depositNew houtcome haffords⟩
        obtain ⟨hcovered, -⟩ := not_or.mp (refusal?_eq_none_iff.mp hpassed)
        exact ⟨_, Program.charge_eq_ok_iff.mpr
          ⟨Nat.le_trans (Nat.le_of_not_lt hcovered) haffords, rfl⟩⟩ }

/-- A creation with just the gas that its program and its code take. -/
theorem unfailing_tenByteCreation :
    let start : Execution :=
      { outer := View.sample
        senders :=
          ((tenByteCreation 55068).validate View.sample (SenderCache.ofCapacity 1)).2 }
    (∀ call ∈ (tenByteCreation 55068).handed? ((tenByteCreation 55068).run start),
        ((tenByteCreation 55068).outcome call.1 call.2).gasUsed ≤
          (tenByteCreation 55068).transaction.gasLimit) ∧
      ((tenByteCreation 55068).run start).program.isSome = true ∧
      (tenByteCreation 55068).Unfailing start := by
  have hfacts :
      0 < (tenByteCreation 55068).basicCost ∧
        (View.sample.balance (tenByteCreation 55068).transaction.sender).toNat < 2 ^ 128 - 1 ∧
        (tenByteCreation 55068).newAddress ≠ (tenByteCreation 55068).transaction.sender ∧
        ((tenByteCreation 55068).execute View.sample (SenderCache.ofCapacity 1)).accepted =
          true := by
    decide +kernel
  obtain ⟨hcost, hbalance, hnew, haccepted⟩ := hfacts
  refine ⟨?_, ?_, unfailing_of_accepted rfl rfl (SenderCache.sound_of_empty rfl _) hcost hbalance
    (fun _ => hnew) haccepted⟩
  · decide +kernel
  · decide +kernel

end Job

end LedgerExec
