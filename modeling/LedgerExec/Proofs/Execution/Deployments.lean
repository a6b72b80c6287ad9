import LedgerExec.Proofs.Execution.Deposits
import LedgerExec.Proofs.Execution.Failure
import LedgerExec.Proofs.Execution.Performed
import LedgerExec.Proofs.Execution.Solvency
set_option autoImplicit false

/-!
# Which contracts are deployed

An accepted creation with init code, paid for in exact numbers, always comes to its
interpreter (`exists_interpreterCall`).  If the init code completes, it is what it returned
that decides: `Job.Deployed` says what is left if the gas pays for the code and the code is
not too large, `Job.Undeployed` what is left otherwise.  The gas limit of an accepted
transaction is below the ceiling, so the comparison with the cut-off price of the code is
that of the exact numbers (`refusal?_eq_none_iff_exact`), and the program can always be
charged for what the gas pays for.
-/

namespace LedgerExec

namespace Job

variable {j : Job} {outer : View} {senders : SenderCache} {program : Program} {v : View}
  {p : Play}

/-! ## The way to the interpreter -/

/-- No creation is free. -/
theorem basicCost_pos_of_creation (hcreation : j.transaction.isCreation = true) :
    0 < j.basicCost := by
  have hreceiver := receiver?_eq_none_iff.mpr hcreation
  have hcharged : j.context.chain.setup.isFree j.transaction j.context.active = false := by
    unfold SetupPolicy.isFree
    rw [hreceiver]
    split
    · rfl
    · split
      · rename_i hsome
        exact absurd hsome.symm (Option.some_ne_none _)
      · rfl
  rw [j.basicCost_pos_iff, exactCost, Transaction.exactCost, hcharged, hcreation]
  simp only [Bool.false_eq_true, if_false, if_true]
  omega

/-- The value of a creation with init code moves once the program is prepared. -/
theorem program_create {e : Execution} (hclean : e.result.fault = none)
    (hcode : j.transaction.payload.data ≠ []) (address : Address)
    (hcovered : j.transaction.payload.value.toNat ≤
      (((e.inside.create address).setUpContract address).balance j.transaction.sender).toNat) :
    ∃ owner v, (j.create e address).program = some (Program.start j.context.tracing
      j.transaction.payload.data
      (j.context.invocation j.transaction j.index owner j.context.block v)
      j.destroyedInBlock) := by
  obtain ⟨w, htransfer⟩ := View.exists_transfer hcovered address
  have hdata : j.transaction.payload.data.isEmpty = false := by simpa using hcode
  let prepared := j.prepare
    (({ e with newContract := some address }.within (·.create address)).within
      (·.setUpContract address)) address j.transaction.payload.data
  have hcreate : j.create e address = j.moveValue prepared address := by
    simp only [create, hdata, Bool.false_eq_true, if_false, prepared]
  have hinside : prepared.inside = (e.inside.create address).setUpContract address := rfl
  rw [← hinside] at htransfer
  rw [hcreate, moveValue_of_transfer (e := prepared) hclean htransfer]
  exact ⟨_, _, rfl⟩

/-- A creation with init code that can be paid for comes to its interpreter. -/
theorem exists_interpreterCall (senders : SenderCache) (hchain : j.isLocal = false)
    (hmaker : j.context.invocation = Invocation.ofTransaction)
    (hruns : j.context.runsPrograms = true) (hcreation : j.transaction.isCreation = true)
    (hcode : j.transaction.payload.data ≠ []) (hsender : j.newAddress ≠ j.transaction.sender)
    (hsolvent : j.transaction.payload.value.toNat + j.exactPrepayment ≤
      (outer.balance j.transaction.sender).toNat)
    (hcost : j.basicCost.toNat ≤ j.transaction.gasLimit.toNat) :
    ∃ program v, j.interpreterCall? outer senders = some (program, v) := by
  obtain ⟨hexact, paid, hdebit⟩ := debit_of_solvent hsolvent
  have hpaid := View.balance_debit hdebit j.transaction.sender
  rw [if_pos rfl, View.balance_raiseNonce, hexact] at hpaid
  have hdispatch : j.dispatch paid = .creation j.newAddress := by
    simp [dispatch, receiver?_eq_none_iff.mpr hcreation, newAddress]
  have hrun := run_of_paid hchain hdebit (j.validate outer senders).2
  simp only [perform, hdispatch] at hrun
  obtain ⟨owner, w, hprogram⟩ := program_create (j := j)
    (e := { outer := paid, senders := (j.validate outer senders).2, prepaid := !j.isLocal })
    rfl hcode j.newAddress (by
      change _ ≤ (((paid.push.create _).setUpContract _).balance _).toNat
      rw [View.balance_setUpContract, View.balance_create, if_neg hsender.symm, View.balance_push]
      omega)
  rw [← hrun] at hprogram
  refine ⟨_, _, handed?_eq_some_iff.mpr ⟨hruns, rfl, _, hprogram,
    Program.charge_eq_ok_iff.mpr ⟨?_, rfl⟩⟩⟩
  have hcut := j.transaction.toNat_gasLimit
  rw [hmaker, Unsigned.le_iff, Program.gasLeft, Unsigned.toNat_subSat]
  change _ ≤ j.transaction.payload.gasLimit.toNat - (0 : Gas).toNat
  rw [Unsigned.toNat_zero]
  omega

/-! ## The rule -/

theorem toNat_codeCost (code : Bytes) :
    (codeCost code).toNat = min (200 * min code.length (2 ^ 64 - 1)) (2 ^ 63 - 1) := by
  have hprice : Gas.perCodeByte.toNat = 200 := rfl
  rw [codeCost, Gas.toNat_mul, Unsigned.toNat_clamp, hprice, Nat.one_shiftLeft, Nat.one_shiftLeft]

/-- Below the ceiling of all gas, what the gas that is left pays for is a question of exact
numbers. -/
theorem refusal?_eq_none_iff_exact (program : Program) {left : Gas}
    (hleft : left.toNat < Gas.ceiling.toNat) :
    j.refusal? left program = none ↔ 200 * program.result.output.length ≤ left.toNat ∧
      program.result.output.length ≤ j.context.chain.limits.maxContractSize.toNat := by
  have hcost := toNat_codeCost program.result.output
  rw [Gas.toNat_ceiling, Nat.one_shiftLeft] at hleft
  rw [refusal?_eq_none_iff, Refuses, ← codeCost, Unsigned.lt_iff]
  omega

/-- A program that was invoked for the transaction has at least the gas that is left of the limit
of the transaction. -/
theorem le_gasLeft_handedBack (hchain : j.isLocal = false)
    (hmaker : j.context.invocation = Invocation.ofTransaction)
    (hcall : j.interpreterCall? outer senders = some (program, v)) :
    j.transaction.gasLimit.toNat - (j.outcome program v).gasUsed.toNat ≤
      (j.handedBack program v).gasLeft.toNat := by
  obtain ⟨paid, hprepared⟩ := prepared_of_call hchain hcall
  obtain ⟨owner, w, hinvocation⟩ := invocation_of_handed hprepared hcall
  have hcut := j.transaction.toNat_gasLimit
  change _ ≤ program.invocation.gasLimit.toNat - (j.outcome program v).gasUsed.toNat
  rw [hinvocation, hmaker]
  change _ ≤ j.transaction.payload.gasLimit.toNat - _
  omega

/-! ## The ends -/

/-- What is asked of a run of the init code: it leaves the layers below its view alone, fails
neither way, stays within the gas limit, and leaves the code and the removal of the new contract
to the transaction. -/
structure Completes (j : Job) (program : Program) (v : View) : Prop where
  contained : j.context.interpreter.Contained program v
  fault : (j.outcome program v).fault = none
  standing : (j.outcome program v).reverted = false
  covered : (j.outcome program v).gasUsed ≤ j.transaction.gasLimit
  spared : j.newAddress ∉ (j.outcome program v).destroyed
  unwritten : (j.outcome program v).codeChanges[j.newAddress]? = none

/-- A creation that has deployed the code that its program returned. -/
structure Deployed (j : Job) (program : Program) (v : View) (e : Execution) : Prop where
  successful : (j.receipt e).isSuccessful = true
  gasUsed : ∃ s, e.settlement = some s ∧ s.gasUsed.toNat =
    (j.outcome program v).gasUsed.toNat + 200 * (j.outcome program v).output.length
  code : ∃ account, e.outer.account? j.newAddress = some account ∧
    account.code = keptCode (j.outcome program v).output

/-- A creation whose code was refused, in a state that was `before`. -/
structure Undeployed (j : Job) (before : View) (e : Execution) : Prop where
  failed : (j.receipt e).isSuccessful = false
  output : e.result.output = [] ∧ ∃ s, e.settlement = some s ∧ s.output = []
  gasLeft : e.gasLeft = 0
  gasUsed : (j.receipt e).gasUsed = j.transaction.gasLimit
  paidFees : e.paidFees.toNat =
    j.transaction.gasLimit.toNat * j.transaction.payload.gasPrice.toNat
  /-- the sender is short of the price of both limits and of nothing else -/
  value : (e.outer.balance j.transaction.sender).toNat + j.exactPrepayment =
    (before.balance j.transaction.sender).toNat +
      (if j.transaction.sender = j.context.feeRecipient then
        j.transaction.gasLimit.toNat * j.transaction.payload.gasPrice.toNat else 0)
  account : e.outer.account? j.newAddress = some (before.accountOrFresh j.newAddress)
  word : ∀ key, e.outer.word j.newAddress key =
    if before.hasAccount j.newAddress then before.word j.newAddress key else Octets.zero

/-- The settlement of a run whose code is saved. -/
theorem deployed_of_passed (hchain : j.isLocal = false)
    (hsender : j.newAddress ≠ j.transaction.sender)
    (hrecipient : j.newAddress ≠ j.context.feeRecipient) (h : j.Returned program v p)
    (hcompletes : j.Completes program v)
    (hpassed : j.refusal? p.execution.gasLeft p.program = none)
    (hpaid : codeCost p.program.result.output ≤ p.program.gasLeft)
    (hused : (j.outcome program v).gasUsed.toNat + 200 * (j.outcome program v).output.length ≤
      Gas.ceiling.toNat) :
    j.Deployed program v (j.finalize (close (j.wrapUp p))) := by
  have hresult := h.result
  have hclosed := close_wrapUp_of_clean h hpassed hpaid (hresult ▸ hcompletes.fault)
  have hcharged : (close (j.wrapUp p)).result = chargedResult (j.outcome program v) := by
    rw [hclosed, hresult]
  have haccount := account?_finalize (e := close (j.wrapUp p)) hchain (by rw [hclosed]) hsender
    hrecipient (by rw [hcharged, destroyed_chargedResult]; exact hcompletes.spared)
  rw [account?_saveChanges, hcharged, codeChanges_chargedResult, hcompletes.unwritten] at haccount
  have hcost := toNat_codeCost (j.outcome program v).output
  rw [Gas.toNat_ceiling, Nat.one_shiftLeft] at hused
  exact
    { successful := by
        rw [isSuccessful_receipt, finalize_on_chain hchain, hclosed]
        exact h.error
      gasUsed := by
        rw [finalize_on_chain hchain, hclosed, hresult]
        refine ⟨_, rfl, ?_⟩
        change (Gas.add (j.outcome program v).gasUsed _).toNat = _
        rw [Gas.toNat_add, hcost, Nat.one_shiftLeft]
        omega
      code := by
        rw [haccount, hclosed, hresult]
        change ∃ account, (View.commit _).pop.account? _ = _ ∧ _
        rw [View.account?_pop_commit, account?_saveCode, if_pos rfl]
        exact ⟨_, rfl, rfl⟩ }

/-- A settlement that gives nothing back takes the whole price of the limit. -/
theorem payments_of_forfeited {s : Settlement} (hleft : s.gasLeft = 0) (hrefund : s.gasRefund = 0) :
    Unsigned.addSat s.leftover s.refund = 0 ∧ s.fee = s.gasLimit.price s.gasPrice := by
  have hnothing : Gas.price 0 s.gasPrice = 0 := by
    rw [← Unsigned.toNat_inj, Gas.toNat_price, Unsigned.toNat_zero, Nat.zero_mul]
    rfl
  have hwhole : Unsigned.subSat s.gasLimit (Unsigned.addSat s.gasLeft s.gasRefund) =
      s.gasLimit := by
    rw [hleft, hrefund, ← Unsigned.toNat_inj, Unsigned.toNat_subSat, Unsigned.toNat_addSat,
      Unsigned.toNat_zero]
    omega
  refine ⟨?_, by rw [Settlement.fee, hwhole]⟩
  rw [Settlement.leftover, hleft, hnothing, Settlement.refund, hrefund, hnothing]
  rfl

/-- What is paid in advance covers the price of the gas limit. -/
theorem exactGas_le_exactPrepayment (j : Job) :
    j.transaction.gasLimit.toNat * j.transaction.payload.gasPrice.toNat ≤ j.exactPrepayment :=
  Nat.mul_le_mul_right _ (Nat.le_add_right _ _)

/-- Taking the price in advance leaves alone all accounts but that of the sender. -/
theorem same_of_paid {paid : View} {a : Address} (hsender : a ≠ j.transaction.sender)
    (hdebit : (outer.raiseNonce j.transaction.sender).debit j.transaction.sender j.prepayment =
      .ok paid) :
    paid.account? a = outer.account? a ∧ ∀ key, paid.word a key = outer.word a key := by
  obtain ⟨rest, -, rfl⟩ := View.debit_eq_ok_iff.mp hdebit
  simp [View.raiseNonce, hsender]

/-- What a sender has left that was charged for the whole limit, and may have got the fee. -/
theorem balance_of_forfeited {s : Settlement} {paid : View}
    (hsolvent : j.transaction.payload.value.toNat + j.exactPrepayment ≤
      (outer.balance j.transaction.sender).toNat)
    (hdebit : (outer.raiseNonce j.transaction.sender).debit j.transaction.sender j.prepayment =
      .ok paid)
    (hback : Unsigned.addSat s.leftover s.refund = 0)
    (hfee : s.fee.toNat =
      j.transaction.gasLimit.toNat * j.transaction.payload.gasPrice.toNat) (refused : Bool) :
    ((j.payOut s (j.kept paid refused)).balance j.transaction.sender).toNat + j.exactPrepayment =
      (outer.balance j.transaction.sender).toNat +
        (if j.transaction.sender = j.context.feeRecipient then
          j.transaction.gasLimit.toNat * j.transaction.payload.gasPrice.toNat else 0) := by
  have hbalance := (outer.balance j.transaction.sender).isLt
  rw [Nat.one_shiftLeft] at hbalance
  have hgas := j.exactGas_le_exactPrepayment
  obtain ⟨htaken, -⟩ := debit_of_solvent hsolvent
  rw [toNat_balance_undone hdebit, hback, hfee, Unsigned.toNat_zero, ite_self, if_pos rfl, htaken]
  split <;> omega

/-- The settlement of a run whose code is refused. -/
theorem undeployed_of_refusal (hchain : j.isLocal = false)
    (hsender : j.newAddress ≠ j.transaction.sender)
    (hrecipient : j.newAddress ≠ j.context.feeRecipient)
    (hsolvent : j.transaction.payload.value.toNat + j.exactPrepayment ≤
      (outer.balance j.transaction.sender).toNat)
    (h : j.Returned program v p)
    (hdebit : (outer.raiseNonce j.transaction.sender).debit j.transaction.sender j.prepayment =
      .ok p.execution.outer) {refusal : RunFault}
    (hrefusal : j.refusal? p.execution.gasLeft p.program = some refusal) :
    j.Undeployed outer (j.finalize (close (j.wrapUp p))) := by
  have hclosed := close_wrapUp_of_refusal h hrefusal
  generalize close (j.wrapUp p) = e at hclosed ⊢
  have hclean : e.inner = {} := by rw [hclosed]
  have hquiet : e.result.Quiet := by
    rw [hclosed]
    exact (RunResult.quiet_discard _).output []
  have houtput : (creditDestroyed e.result).output = [] := by
    rw [output_creditDestroyed, hclosed]
    rfl
  have hprepaid : e.prepaid = true := by
    rw [hclosed]
    exact h.prepaid
  have hleft : e.gasLeft = 0 := by rw [hclosed]
  have hkept : e.outer = j.kept p.execution.outer true := by rw [hclosed]
  have herror : e.error ≠ none := by
    rw [hclosed]
    exact Option.some_ne_none _
  -- nothing goes back, so all that is paid is the price of the limit
  have hrefund := j.gasRefund_of_quiet hquiet e.gasLeft
  obtain ⟨hback, hfee⟩ := payments_of_forfeited
    (s := j.settlement (creditDestroyed e.result) e.gasLeft) hleft hrefund
  have hpaid : (j.settlement (creditDestroyed e.result) e.gasLeft).fee.toNat =
      j.transaction.gasLimit.toNat * j.transaction.payload.gasPrice.toNat := by
    have hgas := j.exactGas_le_exactPrepayment
    have hbalance := (outer.balance j.transaction.sender).isLt
    rw [hfee, Gas.toNat_price]
    change min (j.transaction.gasLimit.toNat * j.transaction.payload.gasPrice.toNat) _ = _
    omega
  have hgas : (j.finalize e).gasLeft = 0 := by
    rw [finalize_on_chain hchain]
    change j.context.gasRules.add e.gasLeft _ = 0
    rw [hrefund, hleft]
    exact (GasRules.add_zero_eq_zero_iff _ _).mpr rfl
  have houter := outer_finalize_of_quiet hchain hclean hquiet
  rw [if_pos hprepaid, hkept] at houter
  obtain ⟨haccount, hword⟩ := same_of_paid hsender hdebit
  exact
    { failed := by
        rw [← Bool.not_eq_true, isSuccessful_receipt, finalize_on_chain hchain]
        exact herror
      output := by
        rw [finalize_on_chain hchain]
        exact ⟨houtput, _, rfl, houtput⟩
      gasLeft := hgas
      gasUsed := by
        change j.context.gasRules.subOrZero _ (j.finalize e).gasLeft = _
        rw [hgas, GasRules.subOrZero_zero]
      paidFees := by
        rw [finalize_on_chain hchain]
        simp only [hprepaid, if_true]
        exact hpaid
      value := by
        rw [houter]
        exact balance_of_forfeited hsolvent hdebit hback hpaid true
      account := by
        rw [houter, account?_payOut _ _ hsender hrecipient, account?_kept, View.accountOrFresh,
          haccount, View.accountOrFresh]
      word := fun key => by
        have hthere : p.execution.outer.hasAccount j.newAddress =
            outer.hasAccount j.newAddress := by rw [View.hasAccount, haccount, View.hasAccount]
        rw [houter, payOut, View.credit, View.word_put, View.credit, View.word_put, word_kept,
          hthere, hword] }

/-! ## The whole -/

/-- An accepted creation with init code, whose sender has less than the greatest balance, comes to
its interpreter.  If the init code completes, what it returns is deployed exactly if the gas that
it leaves pays for it and it is not too large. -/
theorem deployed_or_undeployed {transactions : List Transaction} (hchain : j.isLocal = false)
    (hmaker : j.context.invocation = Invocation.ofTransaction)
    (hruns : j.context.runsPrograms = true) (hcreation : j.transaction.isCreation = true)
    (hcode : j.transaction.payload.data ≠ []) (hsound : senders.Sound transactions)
    (ht : j.transaction ∈ transactions)
    (hbalance : (outer.balance j.transaction.sender).toNat < 2 ^ 128 - 1)
    (hsender : j.newAddress ≠ j.transaction.sender)
    (hrecipient : j.newAddress ≠ j.context.feeRecipient)
    (hinterpreter : ∀ program v, j.interpreterCall? outer senders = some (program, v) →
      j.Completes program v)
    (haccepted : (j.execute outer senders).accepted = true) :
    ∃ program v, j.interpreterCall? outer senders = some (program, v) ∧
      (200 * (j.outcome program v).output.length ≤
            j.transaction.gasLimit.toNat - (j.outcome program v).gasUsed.toNat ∧
          (j.outcome program v).output.length ≤
            j.context.chain.limits.maxContractSize.toNat →
        j.Deployed program v (j.execute outer senders)) ∧
      (¬(200 * (j.outcome program v).output.length ≤
            j.transaction.gasLimit.toNat - (j.outcome program v).gasUsed.toNat ∧
          (j.outcome program v).output.length ≤
            j.context.chain.limits.maxContractSize.toNat) →
        j.Undeployed outer (j.execute outer senders)) := by
  have hfunds := exactTotal_le_of_accepted hchain hsound ht hbalance haccepted
  rw [exactTotal_of_basicCost (basicCost_pos_of_creation hcreation)] at hfunds
  obtain ⟨-, hceiling, hcost⟩ := checkGas_eq_ok_iff.mp (checkGas_of_accepted hchain haccepted)
  obtain ⟨program, v, hcall⟩ := exists_interpreterCall senders hchain hmaker hruns hcreation
    hcode hsender hfunds hcost
  have hcompletes := hinterpreter program v hcall
  have hused := Unsigned.le_iff.mp hcompletes.covered
  obtain ⟨p, h, hplayed⟩ :=
    returned_of_call hchain hcreation hcall hcompletes.standing hcompletes.covered
  have hresult := h.result
  have hleft : p.execution.gasLeft.toNat =
      j.transaction.gasLimit.toNat - (j.outcome program v).gasUsed.toNat := by
    rw [h.gasLeft, Unsigned.toNat_subSat]
  have hbelow : p.execution.gasLeft.toNat < Gas.ceiling.toNat := by omega
  have hrule := refusal?_eq_none_iff_exact (j := j) p.program hbelow
  rw [hleft, hresult] at hrule
  rw [execute_of_accepted haccepted, hplayed]
  refine ⟨program, v, hcall, fun hmet => ?_, fun hunmet => ?_⟩
  · have hpaid : codeCost p.program.result.output ≤ p.program.gasLeft := by
      have hcovers := le_gasLeft_handedBack hchain hmaker hcall
      rw [Unsigned.le_iff, hresult, h.given, toNat_codeCost]
      omega
    exact deployed_of_passed hchain hsender hrecipient h hcompletes (hrule.mpr hmet) hpaid
      (by omega)
  · obtain ⟨refusal, hrefusal⟩ := Option.ne_none_iff_exists'.mp (mt hrule.mp hunmet)
    have hdebit := pop_of_contained hchain hcall hcompletes.contained
    rw [← h.outer] at hdebit
    exact undeployed_of_refusal hchain hsender hrecipient hfunds h hdebit hrefusal

/-- A creation whose init code returns ten bytes. -/
def tenByteCreation (gasLimit : Gas) : Job :=
  sample { gasPrice := 2, gasLimit, value := 5, data := [1] }
    [([1], [ .act { name := "RETURN" } (.returnData (List.replicate 10 254)) ])]

/-- With just enough gas the ten bytes are deployed. -/
theorem deployed_tenByteCreation :
    (∃ s, ((tenByteCreation 55068).execute View.sample (SenderCache.ofCapacity 1)).settlement =
        some s ∧ s.gasUsed.toNat = 53068 + 2000) ∧
      ∃ account, ((tenByteCreation 55068).execute View.sample
          (SenderCache.ofCapacity 1)).outer.account? (tenByteCreation 55068).newAddress =
            some account ∧
        account.code = some (List.replicate 10 254) := by
  have hfacts :
      ((tenByteCreation 55068).execute View.sample (SenderCache.ofCapacity 1)).accepted = true ∧
        (View.sample.balance (tenByteCreation 55068).transaction.sender).toNat < 2 ^ 128 - 1 ∧
        (tenByteCreation 55068).newAddress ≠ (tenByteCreation 55068).transaction.sender ∧
        (tenByteCreation 55068).newAddress ≠ (tenByteCreation 55068).context.feeRecipient ∧
        ∀ call ∈ (tenByteCreation 55068).interpreterCall? View.sample (SenderCache.ofCapacity 1),
          ((tenByteCreation 55068).outcome call.1 call.2).fault = none ∧
            ((tenByteCreation 55068).outcome call.1 call.2).reverted = false ∧
            ((tenByteCreation 55068).outcome call.1 call.2).gasUsed = 53068 ∧
            ((tenByteCreation 55068).outcome call.1 call.2).destroyed = ∅ ∧
            ((tenByteCreation 55068).outcome call.1 call.2).codeChanges = ∅ ∧
            ((tenByteCreation 55068).outcome call.1 call.2).output = List.replicate 10 254 := by
    decide +kernel
  obtain ⟨haccepted, hbalance, hsender, hrecipient, hcalls⟩ := hfacts
  have hcompletes : ∀ program v,
      (tenByteCreation 55068).interpreterCall? View.sample (SenderCache.ofCapacity 1) =
        some (program, v) → (tenByteCreation 55068).Completes program v := by
    intro program v hcall
    obtain ⟨hfault, hstanding, hused, hdestroyed, hcodes, -⟩ := hcalls (program, v) hcall
    exact
      { contained := Interpreter.scripted_contained _ program v
        fault := hfault
        standing := hstanding
        covered := by
          rw [hused]
          decide
        spared := by
          rw [hdestroyed]
          exact Std.ExtTreeSet.not_mem_empty
        unwritten := by rw [hcodes, Std.ExtTreeMap.getElem?_empty] }
  obtain ⟨program, v, hcall, hdeployed, -⟩ := deployed_or_undeployed rfl rfl rfl rfl
    (List.cons_ne_nil _ _) (SenderCache.sound_of_empty (c := SenderCache.ofCapacity 1) rfl [_])
    List.mem_cons_self hbalance hsender hrecipient hcompletes haccepted
  obtain ⟨-, -, hused, -, -, houtput⟩ := hcalls (program, v) hcall
  have hdone := hdeployed (by rw [hused, houtput]; decide)
  have hgas := hdone.gasUsed
  have hkept := hdone.code
  rw [hused, houtput] at hgas
  rw [houtput] at hkept
  exact ⟨hgas, hkept⟩

/-- One unit less, and there is an account without code. -/
example :
    ((tenByteCreation 55067).execute View.sample (SenderCache.ofCapacity 1)).outer.account?
      (tenByteCreation 55067).newAddress = some Account.fresh := by
  decide +kernel

end Job

end LedgerExec
