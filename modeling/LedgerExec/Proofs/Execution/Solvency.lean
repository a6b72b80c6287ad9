import LedgerExec.Proofs.Execution.Conservation
import LedgerExec.Proofs.Execution.Covered
import LedgerExec.Proofs.Execution.Validity
import LedgerExec.Proofs.State.Balances
set_option autoImplicit false

/-!
# Whether a sender can pay

The money that a transaction asks for is computed in balances, which stop at the greatest
one, and compared with a balance, which may be the greatest one itself.  So an accepted
transaction is paid for in exact numbers as long as what it asks for is a balance at all,
and the only sender that may be asked for more is one with the greatest balance
(`Job.solvent_of_accepted`).

Of a transaction that is paid for, no more comes back than was taken.  The gas that is left
and the gas that is refunded are within the limit whenever the interpreter stays within it
(`Job.gasBack_played`), and then the payments are a price that has been paid.
-/

namespace LedgerExec

namespace Job

variable {j : Job} {outer paid : View} {senders : SenderCache} {e : Execution} {p : Play}

/-! ## What comes back -/

/-- The deposit uses no more than was left. -/
theorem gasUsed_depositNew
    (hsum : p.execution.gasLeft.toNat + p.program.result.gasUsed.toNat ≤
      j.transaction.gasLimit.toNat) :
    (j.depositNew p).program.result.gasUsed.toNat ≤ j.transaction.gasLimit.toNat := by
  have hdeposited := deposited_depositNew j p
  generalize j.depositNew p = deposited at hdeposited ⊢
  cases hdeposited with
  | skipped => omega
  | refused => exact Nat.le_trans (Nat.le_add_left _ _) hsum
  | unpaid => exact Nat.le_trans (Nat.le_add_left _ _) hsum
  | stored _ address cost left hafforded program hcharge =>
      obtain ⟨-, rfl⟩ := Program.charge_eq_ok_iff.mp hcharge
      change (Gas.add p.program.result.gasUsed cost).toNat ≤ _
      rw [Gas.toNat_add]
      omega

theorem gasUsed_wrapUp
    (hsum : p.execution.gasLeft.toNat + p.program.result.gasUsed.toNat ≤
      j.transaction.gasLimit.toNat) :
    (j.wrapUp p).program.result.gasUsed.toNat ≤ j.transaction.gasLimit.toNat := by
  have hdeposited := gasUsed_depositNew hsum
  simp only [wrapUp]
  split
  · exact hdeposited
  · have hconcluded := concluded_conclude (j.depositNew p)
    generalize conclude (j.depositNew p) = concluded at hconcluded ⊢
    cases hconcluded <;> exact hdeposited

/-- A run uses no more than the limit, if its interpreter does not. -/
theorem gasUsed_play (hcost : j.basicCost.toNat ≤ j.transaction.gasLimit.toNat)
    {program : Program} (hprogram : e.program = some program) (hfresh : program.result = {})
    (hinterpreter : ∀ program v, j.handed? e = some (program, v) →
      (j.outcome program v).gasUsed ≤ j.transaction.gasLimit) :
    (j.play e program).program.result.gasUsed.toNat ≤ j.transaction.gasLimit.toNat := by
  unfold play
  split
  · rw [hfresh]
    exact Nat.zero_le _
  · rename_i charged hcharge
    have hinterpreted :
        (j.interpret e charged).program.result.gasUsed.toNat ≤ j.transaction.gasLimit.toNat := by
      unfold interpret
      split
      · rename_i hruns
        have hhanded : j.handed? e = some (charged, e.inside) :=
          handed?_eq_some_iff.mpr ⟨hruns, rfl, program, hprogram, hcharge⟩
        exact Unsigned.le_iff.mp (hinterpreter charged e.inside hhanded)
      · obtain ⟨-, rfl⟩ := Program.charge_eq_ok_iff.mp hcharge
        change (program.result.spend j.basicCost).gasUsed.toNat ≤ _
        rw [toNat_gasUsed_spend_zero (by rw [hfresh])
          (Nat.le_trans hcost j.transaction.gasLimit_le_ceiling)]
        exact hcost
    unfold afterInterpreter
    split
    · exact hinterpreted
    · rename_i left hsub
      exact gasUsed_wrapUp (Nat.le_of_eq (Gas.sub_eq_ok_iff.mp hsub))

/-- The gas that is left and the refund are within the limit, as half of what is used is at most
refunded. -/
theorem gasBack_of_covered (hcovered : e.Covered j.transaction.gasLimit)
    (hused : e.result.gasUsed.toNat ≤ j.transaction.gasLimit.toNat) :
    e.gasLeft.toNat + (j.settlement (creditDestroyed e.result) e.gasLeft).gasRefund.toNat ≤
      j.transaction.gasLimit.toNat := by
  have hrefund := j.toNat_gasRefund e.result e.gasLeft
  rcases hcovered with hnone | hsum
  · rw [hnone] at hrefund ⊢
    rw [Unsigned.toNat_zero]
    omega
  · omega

theorem gasBack_complete {I : View → Prop} (hprepared : j.Prepared paid I e)
    (hcost : j.basicCost.toNat ≤ j.transaction.gasLimit.toNat)
    (hinterpreter : ∀ program v, j.handed? e = some (program, v) →
      (j.outcome program v).gasUsed ≤ j.transaction.gasLimit) :
    (j.complete e).gasLeft.toNat +
        (j.settlement (creditDestroyed (j.complete e).result) (j.complete e).gasLeft).gasRefund.toNat ≤
      j.transaction.gasLimit.toNat := by
  unfold complete
  split
  · have hnothing := j.gasRefund_of_quiet hprepared.quiet e.gasLeft
    have hleft := hprepared.gasLeft
    change e.gasLeft.toNat + (j.settlement (creditDestroyed e.result) e.gasLeft).gasRefund.toNat ≤ _
    rw [hnothing, Unsigned.toNat_zero]
    omega
  · rename_i program hprogram
    have hplayed := gasUsed_play hcost hprogram (hprepared.program program hprogram).1 hinterpreter
    refine gasBack_of_covered (covered_close (j.covered_play e program)) ?_
    obtain ⟨outer, inner, gasLeft, error, result, hclose, hresult⟩ := exists_close (j.play e program)
    rw [hclose]
    rcases hresult with rfl | ⟨fault, rfl⟩
    · exact hplayed
    · exact hplayed

/-- What comes back of a transaction that has been paid for. -/
theorem gasBack_played (hchain : j.isLocal = false)
    (hdebit : (outer.raiseNonce j.transaction.sender).debit j.transaction.sender j.prepayment =
      .ok paid)
    (hcost : j.basicCost.toNat ≤ j.transaction.gasLimit.toNat)
    (hinterpreter : ∀ program v, j.interpreterCall? outer senders = some (program, v) →
      (j.outcome program v).gasUsed ≤ j.transaction.gasLimit) :
    (j.played outer (j.validate outer senders).2).gasLeft.toNat +
        (j.settlement (creditDestroyed (j.played outer (j.validate outer senders).2).result)
          (j.played outer (j.validate outer senders).2).gasLeft).gasRefund.toNat ≤
      j.transaction.gasLimit.toNat := by
  have hrun := run_of_paid hchain hdebit (j.validate outer senders).2
  have hprepared := prepared_perform (j.stable_true paid) (j.validate outer senders).2
  rw [← hrun] at hprepared
  exact gasBack_complete hprepared hcost hinterpreter

/-! ## Whether the sender can pay -/

/-- The price of both limits in exact numbers. -/
def exactPrepayment (j : Job) : Nat :=
  (j.transaction.gasLimit.toNat + j.transaction.rentGasLimit.toNat) *
    j.transaction.payload.gasPrice.toNat

theorem exactTotal_of_basicCost (hcost : 0 < j.basicCost) :
    j.exactTotal = j.transaction.payload.value.toNat + j.exactPrepayment := by
  rw [exactTotal, if_pos (j.basicCost_pos_iff.mp hcost), exactPrepayment,
    Transaction.toNat_gasLimit, Transaction.toNat_rentGasLimit]

theorem checkCash_eq_ok_iff {sender : Address} :
    j.checkCash outer sender = .ok () ↔ j.totalCost ≤ outer.balance sender := by
  simp only [checkCash]
  split
  · rename_i hshort
    simp only [reduceCtorEq, false_iff]
    exact Nat.not_le_of_lt hshort
  · rename_i hcovered
    exact ⟨fun _ => Nat.le_of_not_lt hcovered, fun _ => rfl⟩

/-- What is asked for, cut off at the greatest balance, is there. -/
theorem totalCost_le_of_accepted {transactions : List Transaction} (hchain : j.isLocal = false)
    (hsound : senders.Sound transactions) (ht : j.transaction ∈ transactions)
    (haccepted : (j.execute outer senders).accepted = true) :
    j.totalCost ≤ outer.balance j.transaction.sender := by
  have hchecked := ((validate_eq_ok_iff hchain).mp (validate_of_accepted haccepted)).2
  rw [hsound.sender ht] at hchecked
  obtain ⟨_, -, hafterNonce⟩ := exists_of_bind hchecked
  obtain ⟨⟨⟩, hcash, -⟩ := exists_of_bind hafterNonce
  exact checkCash_eq_ok_iff.mp hcash

/-- A transaction that the sender can pay in exact numbers is paid for, in exact numbers. -/
theorem debit_of_solvent
    (hsolvent : j.transaction.payload.value.toNat + j.exactPrepayment ≤
      (outer.balance j.transaction.sender).toNat) :
    j.prepayment.toNat = j.exactPrepayment ∧
      ∃ paid, (outer.raiseNonce j.transaction.sender).debit j.transaction.sender j.prepayment =
        .ok paid := by
  have hbalance := (outer.balance j.transaction.sender).isLt
  rw [Nat.one_shiftLeft] at hbalance
  have hexact : j.prepayment.toNat = j.exactPrepayment := by
    rw [toNat_prepayment, ← exactPrepayment]
    omega
  refine ⟨hexact, View.exists_debit ?_⟩
  rw [View.balance_raiseNonce, hexact]
  omega

/-- The payments of a settlement that gives back no more than the limit are within the price of both
limits, if this is a balance. -/
theorem payments_le (r : RunResult) (left : Gas)
    (hback : left.toNat + (j.settlement r left).gasRefund.toNat ≤ j.transaction.gasLimit.toNat)
    (hrange : j.exactPrepayment < 2 ^ 128) :
    (Unsigned.addSat (j.settlement r left).leftover (j.settlement r left).refund).toNat +
      (j.settlement r left).fee.toNat ≤ j.exactPrepayment := by
  have hgas : j.transaction.gasLimit.toNat * j.transaction.payload.gasPrice.toNat ≤
      j.exactPrepayment := Nat.mul_le_mul_right _ (Nat.le_add_right _ _)
  have hsum := (j.settlement r left).payments_sum hback
    (by rw [Nat.one_shiftLeft]; exact Nat.lt_of_le_of_lt hgas hrange)
  exact Nat.le_trans (Nat.le_of_eq hsum) hgas

/-- An accepted transaction that is not free is paid for in exact numbers, unless what it asks for
is no balance, which only a sender with the greatest balance is let through with.  If it is paid
for, what is taken in advance is the exact price of both limits, and what goes back to the sender
and the fee are within it, as long as the interpreter stays within the gas limit. -/
theorem solvent_of_accepted {transactions : List Transaction} (hchain : j.isLocal = false)
    (hsound : senders.Sound transactions) (ht : j.transaction ∈ transactions)
    (hcost : 0 < j.basicCost) (haccepted : (j.execute outer senders).accepted = true) :
    (j.transaction.payload.value.toNat + j.exactPrepayment ≤
        (outer.balance j.transaction.sender).toNat ↔
      j.transaction.payload.value.toNat + j.exactPrepayment < 2 ^ 128) ∧
    (2 ^ 128 ≤ j.transaction.payload.value.toNat + j.exactPrepayment →
      outer.balance j.transaction.sender = Unsigned.greatest 128) ∧
    (j.transaction.payload.value.toNat + j.exactPrepayment < 2 ^ 128 →
      (j.execute outer senders).prepaid = true ∧
      j.prepayment.toNat = j.exactPrepayment ∧
      ∃ s, (j.execute outer senders).settlement = some s ∧
        ((∀ program v, j.interpreterCall? outer senders = some (program, v) →
            (j.outcome program v).gasUsed ≤ j.transaction.gasLimit) →
          (Unsigned.addSat s.leftover s.refund).toNat + s.fee.toNat ≤ j.prepayment.toNat)) := by
  have hcash := Unsigned.le_iff.mp (totalCost_le_of_accepted hchain hsound ht haccepted)
  rw [toNat_totalCost, exactTotal_of_basicCost hcost] at hcash
  have hbalance := (outer.balance j.transaction.sender).isLt
  rw [Nat.one_shiftLeft] at hbalance
  refine ⟨⟨fun h => by omega, fun h => by omega⟩, fun hbeyond => ?_, fun hsolvent => ?_⟩
  · rw [← Unsigned.toNat_inj, Unsigned.toNat_greatest, Nat.one_shiftLeft]
    omega
  · have hwithin : j.transaction.payload.value.toNat + j.exactPrepayment ≤
        (outer.balance j.transaction.sender).toNat := by omega
    obtain ⟨hexact, paid, hdebit⟩ := debit_of_solvent hwithin
    have hrun := run_of_paid hchain hdebit (j.validate outer senders).2
    rw [execute_of_accepted haccepted, finalize_on_chain hchain]
    refine ⟨?_, hexact, _, rfl, fun hinterpreter => ?_⟩
    · have hprepared := prepared_perform (j.stable_true paid) (j.validate outer senders).2
      change (j.complete _).prepaid = true
      rw [prepaid_complete, hrun, hprepared.prepaid, hchain]
      rfl
    · have hback := gasBack_played hchain hdebit (basicCost_le_of_accepted hchain haccepted)
        hinterpreter
      rw [hexact]
      exact payments_le _ _ hback (by omega)

/-- A transfer to an account without code, with half of its gas left over, at a given price. -/
def pricedTransfer (gasPrice : Balance) : Job :=
  sample { gasPrice, gasLimit := 42000, receiver := (Octets.ofNat .address 6).toBytes } []

theorem solvent_pricedTransfer :
    (pricedTransfer 3).prepayment.toNat = 126000 ∧
      ∃ s, ((pricedTransfer 3).execute View.sample (SenderCache.ofCapacity 1)).settlement =
          some s ∧
        (Unsigned.addSat s.leftover s.refund).toNat + s.fee.toNat ≤ 126000 := by
  have hfacts :
      0 < (pricedTransfer 3).basicCost ∧
        ((pricedTransfer 3).execute View.sample (SenderCache.ofCapacity 1)).accepted = true ∧
        (pricedTransfer 3).transaction.payload.value.toNat = 0 ∧
        (pricedTransfer 3).exactPrepayment = 126000 ∧
        ∀ call ∈ (pricedTransfer 3).interpreterCall? View.sample (SenderCache.ofCapacity 1),
          ((pricedTransfer 3).outcome call.1 call.2).gasUsed ≤
            (pricedTransfer 3).transaction.gasLimit := by
    decide +kernel
  obtain ⟨hcost, haccepted, hvalue, hexact, hcalls⟩ := hfacts
  obtain ⟨-, -, hsolvent⟩ := solvent_of_accepted rfl
    (SenderCache.sound_of_empty (c := SenderCache.ofCapacity 1) rfl [_]) List.mem_cons_self hcost
    haccepted
  rw [hvalue, hexact] at hsolvent
  obtain ⟨-, hprepayment, s, hsettled, hpayments⟩ := hsolvent (by decide)
  refine ⟨hprepayment, s, hsettled, ?_⟩
  exact hprepayment ▸ hpayments fun program v hcall => hcalls (program, v) hcall

end Job

/-- A state in which the neutral key has the greatest balance. -/
def View.richest : View :=
  View.root.put Envelope.neutral.signer (Account.ofBalance (Unsigned.greatest 128))

/-- At a price of half of all balances the limit alone costs more than there is.  The transfer is
accepted, and as much as was taken goes back to the sender and is the fee, too. -/
theorem Job.pricedTransfer_unpaid :
    (pricedTransfer (Unsigned.truncate 128 (2 ^ 127))).isLocal = false ∧
      0 < (pricedTransfer (Unsigned.truncate 128 (2 ^ 127))).basicCost ∧
      ((pricedTransfer (Unsigned.truncate 128 (2 ^ 127))).execute View.richest
        (SenderCache.ofCapacity 1)).accepted = true ∧
      (View.richest.balance Envelope.neutral.signer).toNat <
        (pricedTransfer (Unsigned.truncate 128 (2 ^ 127))).exactPrepayment ∧
      (((pricedTransfer (Unsigned.truncate 128 (2 ^ 127))).execute View.richest
        (SenderCache.ofCapacity 1)).settlement.map fun s =>
          ((Unsigned.addSat s.leftover s.refund).toNat, s.fee.toNat)) =
        some (2 ^ 128 - 1, 2 ^ 128 - 1) ∧
      (pricedTransfer (Unsigned.truncate 128 (2 ^ 127))).prepayment.toNat = 2 ^ 128 - 1 := by
  decide +kernel

end LedgerExec
