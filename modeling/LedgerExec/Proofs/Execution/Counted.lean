import LedgerExec.Proofs.Execution.Accepted
import LedgerExec.Proofs.State.Nonces
set_option autoImplicit false

/-!
# Counting a transaction

With the passive interpreter an accepted transaction raises the nonce of its sender and
changes no other, unless it creates a contract over an account
(`nonce_execute`).  The run keeps every nonce (`stable_nonce`), and what the third phase
does to the state afterwards is to pay: a program that the interpreter leaves alone asks
for nothing to be saved or removed (`quiet_played`).
-/

namespace LedgerExec

namespace Job

variable {j : Job} {outer paid : View} {senders : SenderCache} {e : Execution} {p : Play}

/-! ## Quiet programs -/

theorem quiet_close (hquiet : p.program.result.Quiet) : (close p).result.Quiet := by
  obtain ⟨outer, inner, gasLeft, error, result, hclose, hresult⟩ := exists_close p
  rw [hclose]
  rcases hresult with rfl | ⟨fault, rfl⟩
  · exact hquiet
  · exact hquiet.fail fault

theorem quiet_charge {program charged : Program} {amount : Gas} {cause : String}
    (hquiet : program.result.Quiet) (hcharge : program.charge amount cause = .ok charged) :
    charged.result.Quiet := by
  obtain ⟨-, rfl⟩ := Program.charge_eq_ok_iff.mp hcharge
  exact hquiet.spend amount

/-- The deposit and the end keep a result quiet. -/
theorem quiet_wrapUp (hquiet : p.program.result.Quiet) : (j.wrapUp p).program.result.Quiet := by
  have hdeposited : (j.depositNew p).program.result.Quiet := by
    have hcases := deposited_depositNew j p
    generalize j.depositNew p = deposited at hcases
    cases hcases with
    | skipped => exact hquiet
    | refused _ _ _ _ fault => exact (hquiet.fail fault).output []
    | unpaid => exact hquiet
    | stored _ _ _ _ _ _ hcharge => exact quiet_charge hquiet hcharge
  have hconcluded (p : Play) (h : p.program.result.Quiet) :
      (conclude p).program.result.Quiet := by
    have hcases := concluded_conclude p
    generalize conclude p = concluded at hcases
    cases hcases with
    | clean => exact h
    | failed => exact RunResult.quiet_discard _
    | reverted => exact RunResult.quiet_discard _
  simp only [wrapUp]
  split
  · exact hdeposited
  · exact hconcluded _ hdeposited

/-- The passive interpreter leaves a quiet result quiet. -/
theorem quiet_play (hpassive : j.context.interpreter = Interpreter.passive) {program : Program}
    (hquiet : program.result.Quiet) : (j.play e program).program.result.Quiet := by
  unfold play
  split
  · exact hquiet
  · rename_i charged hcharge
    have hcharged := quiet_charge hquiet hcharge
    have hinterpreted : (j.interpret e charged).program.result.Quiet := by
      unfold interpret
      rw [hpassive]
      split <;> exact hcharged
    unfold afterInterpreter
    split
    · exact hinterpreted
    · exact quiet_wrapUp hinterpreted

/-- The second phase, with the passive interpreter. -/
theorem quiet_complete (hpassive : j.context.interpreter = Interpreter.passive)
    {I : View → Prop} (hprepared : j.Prepared paid I e) : (j.complete e).result.Quiet := by
  unfold complete
  split
  · exact hprepared.quiet
  · rename_i program hprogram
    have hquiet : program.result.Quiet := by
      rw [(hprepared.program program hprogram).1]
      exact RunResult.quiet_empty
    exact quiet_close (quiet_play hpassive hquiet)

/-! ## Nonces -/

/-- A run keeps every nonce, but for that of an address where it creates a contract. -/
theorem stable_nonce (j : Job) (paid : View) :
    j.Stable paid fun v => ∀ a, (j.transaction.isCreation = true → a ≠ j.newAddress) →
      v.nonce a = paid.nonce a where
  start a _ := paid.nonce_push a
  created hcreates a ha := by
    rw [View.nonce_create _ (ha hcreates), View.nonce_push]
  create v address hmissing hv a ha := by
    rw [v.nonce_create_of_missing hmissing, hv a ha]
  setUpContract v address hv a ha := by rw [View.nonce_setUpContract, hv a ha]
  saveCode v address code hv a ha := by rw [View.nonce_saveCode, hv a ha]
  transfer v w address htransfer hv a ha := by rw [View.nonce_transfer htransfer, hv a ha]

/-- The address where an executed transaction has created a contract, if its run stands. -/
def Creates (j : Job) (e : Execution) (a : Address) : Prop :=
  j.transaction.isCreation = true ∧ e.error = none ∧ a = j.newAddress

theorem not_creates_of_call (hcall : j.transaction.isCreation = false) {a : Address} :
    ¬j.Creates e a := by
  rintro ⟨hcreates, -, -⟩
  rw [hcall] at hcreates
  exact nomatch hcreates

theorem nonce_of_ended {f : Execution}
    (hended : j.Ended paid (fun v => ∀ a, (j.transaction.isCreation = true → a ≠ j.newAddress) →
      v.nonce a = paid.nonce a) e f)
    {a : Address} (ha : ¬j.Creates f a) : f.outer.nonce a = paid.nonce a := by
  cases hended.ending with
  | stands v herror hinside _ houter =>
      rw [houter, v.nonce_pop_commit]
      exact hinside a fun hcreates hnew => ha ⟨hcreates, herror, hnew⟩
  | undone _ houter => rw [houter, (j.sameStanding_kept _ _ a).2]
  | loose _ _ _ _ _ houter => rw [houter]

/-- The third phase changes no nonce for a quiet result. -/
theorem nonce_finalize (hchain : j.isLocal = false) (hclean : e.inner = {})
    (hquiet : e.result.Quiet) (a : Address) :
    (j.finalize e).outer.nonce a = e.outer.nonce a := by
  rw [outer_finalize_of_quiet hchain hclean hquiet]
  split
  · rw [payOut, View.nonce_credit, View.nonce_credit]
  · rfl

theorem creates_finalize (hchain : j.isLocal = false) {a : Address} :
    j.Creates (j.finalize e) a ↔ j.Creates e a := by
  simp [Creates, finalize, hchain, Execution.commit_eq]

/-- What an accepted transaction does to nonces, with the passive interpreter. -/
theorem nonce_execute (hchain : j.isLocal = false)
    (hpassive : j.context.interpreter = Interpreter.passive)
    (haccepted : (j.execute outer senders).accepted = true) {a : Address}
    (ha : ¬j.Creates (j.execute outer senders) a) :
    (j.execute outer senders).outer.nonce a =
      if a = j.transaction.sender then Unsigned.addSat (outer.nonce j.transaction.sender) 1
      else outer.nonce a := by
  rw [execute_of_accepted haccepted] at ha ⊢
  rw [creates_finalize hchain] at ha
  rw [← outer.nonce_raiseNonce j.transaction.sender a]
  cases hdebit :
      (outer.raiseNonce j.transaction.sender).debit j.transaction.sender j.prepayment with
  | error fault =>
      rw [played_of_unpaid hchain hdebit]
      exact nonce_finalize hchain rfl (RunResult.quiet_empty.fail _) a
  | ok paid =>
      have hpaidFor : j.PaidFor outer senders paid _ :=
        paidFor hchain hdebit (j.stable_nonce paid) fun program v _ => by
          rw [hpassive]
          exact ⟨rfl, fun hv => hv⟩
      have hquiet := quiet_complete hpassive hpaidFor.prepared
      have hended := hpaidFor.ended
      rw [nonce_finalize hchain hended.inner hquiet, nonce_of_ended hended ha,
        View.nonce_debit hdebit]

end Job

end LedgerExec
