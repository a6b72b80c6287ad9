import LedgerExec.Proofs.Execution.Settled
set_option autoImplicit false

/-!
# Failed transactions

A transaction that ends with an error leaves no trace of what it did.  Its nonce is
raised, the price of its limits is taken, and the settlement gives back what is
left and pays the fee.  The one account that may stay is that of a contract whose
code was refused.

This takes an interpreter that is contained and does not use more gas than the
transaction has, and programs that are invoked with the limit of the transaction:
then no run ends loose (`not_looseEnd`).

`outer_execute_of_error` says what is left as operations on the outer view,
`standing_of_error` as nonces and balances.
-/

namespace LedgerExec

namespace Job

variable {j : Job} {outer paid : View} {senders : SenderCache} {I : View → Prop} {e : Execution}

/-- What a handed program was invoked with. -/
theorem invocation_of_handed (hprepared : j.Prepared paid I e) {program : Program} {v : View}
    (hhanded : j.handed? e = some (program, v)) :
    ∃ owner v', program.invocation =
      j.context.invocation j.transaction j.index owner j.context.block v' := by
  obtain ⟨-, -, started, hstarted, hcharge⟩ := handed?_eq_some_iff.mp hhanded
  obtain ⟨-, owner, v', hinvocation⟩ := hprepared.program started hstarted
  obtain ⟨-, rfl⟩ := Program.charge_eq_ok_iff.mp hcharge
  exact ⟨owner, v', hinvocation⟩

/-- Programs that are invoked for the transaction know its whole limit, so gas that is left when
the interpreter returns can be charged. -/
theorem not_looseEnd (hmaker : j.context.invocation = Invocation.ofTransaction)
    (hprepared : j.Prepared paid I e) {program : Program} {v : View} {used : Gas}
    (hhanded : j.handed? e = some (program, v)) (hused : used ≤ j.transaction.gasLimit) :
    ¬j.LooseEnd program used := by
  obtain ⟨owner, v', hinvocation⟩ := invocation_of_handed hprepared hhanded
  have hlimit : program.invocation.gasLimit = j.transaction.payload.gasLimit := by
    rw [hinvocation, hmaker]
    rfl
  have hcut : j.transaction.gasLimit.toNat ≤ j.transaction.payload.gasLimit.toNat := by
    rw [Transaction.gasLimit, Gas.toNat_cap]
    omega
  have hused := Unsigned.le_iff.mp hused
  rintro (hover | hshort)
  · omega
  · rw [hlimit] at hshort
    omega

/-! ## What is left -/

/-- A transaction that can not pay its price raises the nonce and does nothing else. -/
theorem outer_execute_of_unpaid (hchain : j.isLocal = false)
    (haccepted : (j.execute outer senders).accepted = true) {fault : StateFault}
    (hdebit : (outer.raiseNonce j.transaction.sender).debit j.transaction.sender j.prepayment =
      .error fault) :
    (j.execute outer senders).outer = outer.raiseNonce j.transaction.sender := by
  rw [execute_of_accepted haccepted, played_of_unpaid hchain hdebit]
  exact outer_finalize_of_quiet hchain rfl (RunResult.quiet_empty.fail _)

/-- A transaction that has paid its price and ends with an error is settled and does nothing else,
but for the account of a contract whose code is refused. -/
theorem settled_of_error (hchain : j.isLocal = false)
    (hmaker : j.context.invocation = Invocation.ofTransaction)
    (hinterpreter : ∀ program v, j.interpreterCall? outer senders = some (program, v) →
      j.context.interpreter.Contained program v ∧
        (j.outcome program v).gasUsed ≤ j.transaction.gasLimit)
    (haccepted : (j.execute outer senders).accepted = true)
    (herror : (j.execute outer senders).error ≠ none)
    (hdebit : (outer.raiseNonce j.transaction.sender).debit j.transaction.sender j.prepayment =
      .ok paid) :
    ∃ settlement,
      (j.execute outer senders).settlement = some settlement ∧
      ((j.execute outer senders).depositRefused = true ↔
        j.DepositFails (j.interpreterCall? outer senders)) ∧
      (j.execute outer senders).outer =
        j.payOut settlement (j.kept paid (j.execute outer senders).depositRefused) := by
  rw [execute_of_accepted haccepted] at herror ⊢
  have hpaidFor := paidFor hchain hdebit (j.stable_true paid) fun program v hcall =>
    ⟨(hinterpreter program v hcall).1, fun _ => trivial⟩
  have hended := hpaidFor.ended
  rw [finalize_of_clean hchain hended.inner] at herror
  have hsettlement := finalize_of_clean hchain hended.inner
  cases hended.ending with
  | stands v hnone => exact absurd hnone herror
  | loose program v hhanded hcause =>
      have hused := (hinterpreter program v hhanded).2
      exact absurd hcause (not_looseEnd hmaker hpaidFor.prepared hhanded hused)
  | undone _ houter hquiet _ =>
      have hprepaid := hended.prepaid
      refine ⟨_, by rw [hsettlement], ?_, ?_⟩
      · rw [hsettlement]
        exact hended.refused
      · rw [outer_finalize_of_quiet hchain hended.inner hquiet, hprepaid, hchain, houter,
          hsettlement]
        rfl

/-- All that a transaction with an error does to the outer view. -/
theorem outer_execute_of_error (hchain : j.isLocal = false)
    (hmaker : j.context.invocation = Invocation.ofTransaction)
    (hinterpreter : ∀ program v, j.interpreterCall? outer senders = some (program, v) →
      j.context.interpreter.Contained program v ∧
        (j.outcome program v).gasUsed ≤ j.transaction.gasLimit)
    (haccepted : (j.execute outer senders).accepted = true)
    (herror : (j.execute outer senders).error ≠ none) :
    (∃ fault,
      (outer.raiseNonce j.transaction.sender).debit j.transaction.sender j.prepayment =
        .error fault ∧
      (j.execute outer senders).outer = outer.raiseNonce j.transaction.sender) ∨
    ∃ paid settlement,
      (outer.raiseNonce j.transaction.sender).debit j.transaction.sender j.prepayment =
        .ok paid ∧
      (j.execute outer senders).settlement = some settlement ∧
      ((j.execute outer senders).depositRefused = true ↔
        j.DepositFails (j.interpreterCall? outer senders)) ∧
      (j.execute outer senders).outer =
        j.payOut settlement (j.kept paid (j.execute outer senders).depositRefused) := by
  cases hdebit :
      (outer.raiseNonce j.transaction.sender).debit j.transaction.sender j.prepayment with
  | error fault => exact .inl ⟨fault, rfl, outer_execute_of_unpaid hchain haccepted hdebit⟩
  | ok paid =>
      obtain ⟨settlement, hsettled⟩ :=
        settled_of_error hchain hmaker hinterpreter haccepted herror hdebit
      exact .inr ⟨paid, settlement, rfl, hsettled⟩

/-- A creation whose code is too expensive for the gas that its program leaves. -/
def refusedCreation : Job :=
  sample { gasPrice := 2, gasLimit := 60000, rentGasLimit := 1000, value := 5, data := [1] }
    [([1],
      [ .nested { name := "INNER" }
          [ .act { name := "STORE" } (.store Octets.zero (Octets.ofNat .word 7)),
            .act { name := "LOG" } (.log [] [3] false) ] true,
        .act { name := "SEND" } (.transfer (Octets.ofNat .address 77) 4),
        .act { name := "RETURN" } (.returnData (List.replicate 100 1)) ])]

theorem outer_execute_refusedCreation :
    ∃ paid settlement,
      (View.sample.raiseNonce refusedCreation.transaction.sender).debit
        refusedCreation.transaction.sender refusedCreation.prepayment = .ok paid ∧
      (refusedCreation.execute View.sample (SenderCache.ofCapacity 1)).settlement =
        some settlement ∧
      (refusedCreation.execute View.sample (SenderCache.ofCapacity 1)).outer =
        refusedCreation.payOut settlement (refusedCreation.kept paid true) := by
  have hfacts :
      (refusedCreation.execute View.sample (SenderCache.ofCapacity 1)).accepted = true ∧
        (refusedCreation.execute View.sample (SenderCache.ofCapacity 1)).error ≠ none ∧
        (refusedCreation.execute View.sample (SenderCache.ofCapacity 1)).depositRefused = true ∧
        ((View.sample.raiseNonce refusedCreation.transaction.sender).debit
          refusedCreation.transaction.sender refusedCreation.prepayment).toBool = true ∧
        ∀ call ∈ refusedCreation.interpreterCall? View.sample (SenderCache.ofCapacity 1),
          (refusedCreation.outcome call.1 call.2).gasUsed ≤
            refusedCreation.transaction.gasLimit := by
    decide +kernel
  obtain ⟨haccepted, herror, hrefused, hpays, hcalls⟩ := hfacts
  have hends := outer_execute_of_error rfl rfl
    (fun program v hcall =>
      ⟨Interpreter.scripted_contained _ program v, hcalls (program, v) hcall⟩)
    haccepted herror
  rcases hends with ⟨fault, hdebit, -⟩ | ⟨paid, settlement, hdebit, hsettled, -, houter⟩
  · rw [hdebit] at hpays
    simp [Except.toBool] at hpays
  · rw [hrefused] at houter
    exact ⟨paid, settlement, hdebit, hsettled, houter⟩

/-! ## The same in numbers -/

theorem toNat_balance_payOut (j : Job) (s : Settlement) (v : View) (a : Address) :
    ((j.payOut s v).balance a).toNat =
      min ((v.balance a).toNat +
          (if a = j.transaction.sender then (Unsigned.addSat s.leftover s.refund).toNat else 0) +
          (if a = j.context.feeRecipient then s.fee.toNat else 0)) (2 ^ 128 - 1) := by
  rw [payOut, View.toNat_balance_credit, View.toNat_balance_credit]
  omega

/-- Of a run that is undone only the payments show in a balance.  The price was there, so nothing is
cut off where it is taken. -/
theorem toNat_balance_undone
    (hdebit : (outer.raiseNonce j.transaction.sender).debit j.transaction.sender j.prepayment =
      .ok paid) (s : Settlement) (refused : Bool) (a : Address) :
    ((j.payOut s (j.kept paid refused)).balance a).toNat =
      min ((outer.balance a).toNat -
          (if a = j.transaction.sender then j.prepayment.toNat else 0) +
          (if a = j.transaction.sender then (Unsigned.addSat s.leftover s.refund).toNat else 0) +
          (if a = j.context.feeRecipient then s.fee.toNat else 0)) (2 ^ 128 - 1) := by
  have htaken := View.balance_debit hdebit a
  rw [View.balance_raiseNonce] at htaken
  rw [toNat_balance_payOut, (j.sameStanding_kept _ _ a).1, ← htaken, Nat.add_sub_cancel]

theorem nonce_undone
    (hdebit : (outer.raiseNonce j.transaction.sender).debit j.transaction.sender j.prepayment =
      .ok paid) (s : Settlement) (refused : Bool) (a : Address) :
    (j.payOut s (j.kept paid refused)).nonce a =
      (outer.raiseNonce j.transaction.sender).nonce a := by
  rw [payOut, View.nonce_credit, View.nonce_credit, (j.sameStanding_kept _ _ a).2,
    View.nonce_debit hdebit]

/-- The nonce of the sender is raised by one, and no other changes.  The price of the limits is taken
from the sender, if it is there, and then what is left goes back and the fee is paid.  Every other
balance stays, that of a contract whose code is refused as well. -/
theorem standing_of_error (hchain : j.isLocal = false)
    (hmaker : j.context.invocation = Invocation.ofTransaction)
    (hinterpreter : ∀ program v, j.interpreterCall? outer senders = some (program, v) →
      j.context.interpreter.Contained program v ∧
        (j.outcome program v).gasUsed ≤ j.transaction.gasLimit)
    (haccepted : (j.execute outer senders).accepted = true)
    (herror : (j.execute outer senders).error ≠ none) :
    (∀ a, (j.execute outer senders).outer.nonce a =
      if a = j.transaction.sender then Unsigned.addSat (outer.nonce j.transaction.sender) 1
      else outer.nonce a) ∧
    ((outer.balance j.transaction.sender).toNat < j.prepayment.toNat ∧
        (∀ a, (j.execute outer senders).outer.balance a = outer.balance a) ∨
      j.prepayment.toNat ≤ (outer.balance j.transaction.sender).toNat ∧
        ∃ s, (j.execute outer senders).settlement = some s ∧
          ∀ a, ((j.execute outer senders).outer.balance a).toNat =
            min ((outer.balance a).toNat -
                (if a = j.transaction.sender then j.prepayment.toNat else 0) +
                (if a = j.transaction.sender then (Unsigned.addSat s.leftover s.refund).toNat
                  else 0) +
                (if a = j.context.feeRecipient then s.fee.toNat else 0)) (2 ^ 128 - 1)) := by
  have hcovered := (outer.raiseNonce j.transaction.sender).exists_debit_iff
    j.transaction.sender j.prepayment
  rw [View.balance_raiseNonce] at hcovered
  simp only [← View.nonce_raiseNonce]
  cases hdebit :
      (outer.raiseNonce j.transaction.sender).debit j.transaction.sender j.prepayment with
  | error fault =>
      simp only [hdebit, reduceCtorEq, exists_false, false_iff, Nat.not_le] at hcovered
      rw [outer_execute_of_unpaid hchain haccepted hdebit]
      exact ⟨fun a => rfl, .inl ⟨hcovered, fun a => outer.balance_raiseNonce _ a⟩⟩
  | ok paid =>
      obtain ⟨s, hsettled, -, houter⟩ :=
        settled_of_error hchain hmaker hinterpreter haccepted herror hdebit
      rw [houter]
      exact ⟨nonce_undone hdebit s _,
        .inr ⟨hcovered.mp ⟨paid, hdebit⟩, s, hsettled, toNat_balance_undone hdebit s _⟩⟩

end Job

end LedgerExec
