import LedgerExec.Proofs.Execution.Played
set_option autoImplicit false

/-!
# After the third phase

The third phase pays, saves and removes what the result asks for.  It finds
nothing pending, so it changes the outer view by these three steps alone, and
those of a quiet result do nothing.

`execute_cases` puts the three phases together: an accepted transaction on chain
either could not be paid for or was paid for, performed and ended in one of the
ways of `Job.Ending`.
-/

namespace LedgerExec

namespace Job

variable {j : Job} {outer paid : View} {senders : SenderCache} {I : View → Prop} {e : Execution}

/-! ## Settling -/

/-! The refund for destroyed accounts changes the refund alone.  Each of these goes through the
fields of the result, as comparing two results as a whole would compute with gas. -/

@[simp] theorem logs_creditDestroyed (r : RunResult) : (creditDestroyed r).logs = r.logs := by
  cases r
  rfl

@[simp] theorem destroyed_creditDestroyed (r : RunResult) :
    (creditDestroyed r).destroyed = r.destroyed := by
  cases r
  rfl

@[simp] theorem codeChanges_creditDestroyed (r : RunResult) :
    (creditDestroyed r).codeChanges = r.codeChanges := by
  cases r
  rfl

@[simp] theorem acceptedLogs_creditDestroyed (r : RunResult) :
    (creditDestroyed r).acceptedLogs = r.acceptedLogs := by
  rw [RunResult.acceptedLogs, logs_creditDestroyed, RunResult.acceptedLogs]

@[simp] theorem output_creditDestroyed (r : RunResult) : (creditDestroyed r).output = r.output := by
  cases r
  rfl

@[simp] theorem fault_creditDestroyed (r : RunResult) : (creditDestroyed r).fault = r.fault := by
  cases r
  rfl

theorem refund_creditDestroyed (r : RunResult) :
    (creditDestroyed r).refund = Gas.add r.refund
      (Gas.mul (Unsigned.clamp 64 r.destroyed.size) Gas.perDestruction) := by
  rw [creditDestroyed, RunResult.addRefund]

theorem finalize_of_clean (hchain : j.isLocal = false) (hclean : e.inner = {}) :
    j.finalize e =
      { e with
        outer := removeDestroyed (creditDestroyed e.result) (j.paidOut e)
        senders := e.senders.store j.transaction
        result := creditDestroyed e.result
        gasLeft := j.context.gasRules.add e.gasLeft
          (j.settlement (creditDestroyed e.result) e.gasLeft).gasRefund
        logs := e.result.acceptedLogs
        paidFees :=
          if e.prepaid then (j.settlement (creditDestroyed e.result) e.gasLeft).fee else 0
        settlement := some (j.settlement (creditDestroyed e.result) e.gasLeft) } := by
  simp only [finalize, hchain, e.commit_of_clean hclean, Bool.false_eq_true, if_false,
    acceptedLogs_creditDestroyed]

theorem saveChanges_of_quiet {r : RunResult} (hquiet : r.Quiet) (v : View) :
    saveChanges r v = v := by
  have hnone : r.codeChanges.toList = [] := by
    rw [← List.isEmpty_iff, Std.ExtTreeMap.isEmpty_toList, hquiet.codeChanges]
    rfl
  simp [saveChanges, hnone]

theorem removeDestroyed_of_quiet {r : RunResult} (hquiet : r.Quiet) (v : View) :
    removeDestroyed r v = v := by
  have hnone : r.destroyed.toList = [] := by
    rw [← List.isEmpty_iff, Std.ExtTreeSet.isEmpty_toList, hquiet.destroyed]
    rfl
  simp [removeDestroyed, hnone]

/-- No account is destroyed, so no refund is added. -/
theorem quiet_creditDestroyed {r : RunResult} (hquiet : r.Quiet) : (creditDestroyed r).Quiet where
  logs := by rw [logs_creditDestroyed, hquiet.logs]
  destroyed := by rw [destroyed_creditDestroyed, hquiet.destroyed]
  codeChanges := by rw [codeChanges_creditDestroyed, hquiet.codeChanges]
  refund := by
    rw [refund_creditDestroyed, hquiet.refund, hquiet.destroyed, Std.ExtTreeSet.size_empty]
    decide

/-- Nothing is saved or removed for a quiet result. -/
theorem outer_finalize_of_quiet (hchain : j.isLocal = false) (hclean : e.inner = {})
    (hquiet : e.result.Quiet) :
    (j.finalize e).outer =
      if e.prepaid then j.payOut (j.settlement (creditDestroyed e.result) e.gasLeft) e.outer
      else e.outer := by
  have hcredited := quiet_creditDestroyed hquiet
  rw [finalize_of_clean hchain hclean]
  change removeDestroyed (creditDestroyed e.result) (j.paidOut e) = _
  rw [removeDestroyed_of_quiet hcredited, paidOut, saveChanges_of_quiet hcredited]

/-! ## The whole -/

/-- The program and the view that executing the transaction hands to the interpreter, if it comes
to that. -/
def interpreterCall? (j : Job) (outer : View) (senders : SenderCache) : Option (Program × View) :=
  j.handed? (j.run { outer, senders := (j.validate outer senders).2 })

/-- What executing the transaction comes to when the price of the limits is taken. -/
structure PaidFor (j : Job) (outer : View) (senders : SenderCache) (paid : View)
    (I : View → Prop) : Prop where
  debit : (outer.raiseNonce j.transaction.sender).debit j.transaction.sender j.prepayment = .ok paid
  prepared : j.Prepared paid I (j.run { outer, senders := (j.validate outer senders).2 })
  ended : j.Ended paid I (j.run { outer, senders := (j.validate outer senders).2 })
    (j.played outer (j.validate outer senders).2)

theorem validate_of_accepted (haccepted : (j.execute outer senders).accepted = true) :
    (j.validate outer senders).1 = .ok () := by
  cases hvalid : j.validate outer senders with
  | mk verdict cached =>
      cases verdict with
      | error reason => simp [execute, hvalid, Execution.accepted] at haccepted
      | ok => rfl

theorem execute_of_accepted (haccepted : (j.execute outer senders).accepted = true) :
    j.execute outer senders = j.finalize (j.played outer (j.validate outer senders).2) := by
  have hvalid := validate_of_accepted haccepted
  unfold execute
  split
  · rename_i reason cached hvalidate
    simp [hvalidate] at hvalid
  · rename_i cached hvalidate
    rw [hvalidate]

/-- The run of a transaction that can not be paid for. -/
theorem played_of_unpaid (hchain : j.isLocal = false) {fault : StateFault}
    (hdebit : (outer.raiseNonce j.transaction.sender).debit j.transaction.sender j.prepayment =
      .error fault) (senders : SenderCache) :
    j.played outer senders =
      { outer := outer.raiseNonce j.transaction.sender
        senders
        error := some (.prepayment fault)
        result := RunResult.fail {} (.transfer fault) } := by
  rcases run_cases hchain outer senders with ⟨fault', hdebit', hrun⟩ | ⟨paid, hpaid, -⟩
  · rw [hdebit] at hdebit'
    obtain rfl := Except.error.inj hdebit'
    rw [played, hrun]
    exact Execution.commit_of_clean _ rfl
  · rw [hdebit] at hpaid
    simp at hpaid

theorem paidFor (hchain : j.isLocal = false)
    (hdebit : (outer.raiseNonce j.transaction.sender).debit j.transaction.sender j.prepayment =
      .ok paid) (hstable : j.Stable paid I)
    (hinterpreter : ∀ program v, j.interpreterCall? outer senders = some (program, v) →
      j.context.interpreter.Contained program v ∧ (I v → I (j.context.interpreter program v).2)) :
    j.PaidFor outer senders paid I := by
  have hrun := run_of_paid hchain hdebit (j.validate outer senders).2
  have hprepared := prepared_perform hstable (j.validate outer senders).2
  rw [← hrun] at hprepared
  exact
    { debit := hdebit
      prepared := hprepared
      ended := ended_complete hprepared
        (fun _ v code hv => hstable.saveCode v _ code hv) hinterpreter }

end Job

/-! ## A transaction to try -/

/-- An envelope whose signature verifies whatever is signed: the key is the neutral element of the
group, and so is what the signature commits to. -/
def Envelope.neutral : Envelope :=
  ⟨Octets.ofNat .publicKey (1 <<< 248), Octets.ofNat .signature (1 <<< 504)⟩

/-- The first transaction of the neutral key, alone in the first block of the main chain. -/
def Job.sample (payload : Payload) (scripts : List (Bytes × List ScriptStep)) : Job where
  context := Context.ofChain ChainConfig.mainnet
    { number := 1
      parentHash := Octets.zero
      coinbase := Octets.ofNat .address 9
      timestamp := 0
      gasLimit := 1000000 } {} {} (Interpreter.scripted scripts)
  transaction := ⟨payload, .signed Envelope.neutral⟩

/-- The address of a contract. -/
def Address.sample : Address := Octets.ofNat .address 5

/-- A state in which the neutral key and a contract have some money. -/
def View.sample : View :=
  (View.root.put Envelope.neutral.signer (Account.ofBalance 1000000)).put Address.sample
    { balance := 100, code := some [1], isContract := true }

end LedgerExec
