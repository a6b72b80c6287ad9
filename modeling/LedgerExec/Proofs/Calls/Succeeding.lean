import LedgerExec.Proofs.Block.Ancestry
import LedgerExec.Proofs.Execution.Deposits
import LedgerExec.Proofs.Execution.LocalCalls
import LedgerExec.Proofs.Execution.Validity
set_option autoImplicit false

/-!
# What a run without instructions takes

Under the passive interpreter nothing happens between the first phase and the end, so
whether a run succeeds is decided by the money for its value, the answer of the built-in
contract that it calls, and the gas that its program is invoked with (`Job.Supported`).
What it then uses and returns depends on what is asked for and on nothing else: not on the
limit, and not on what anybody owns (`Job.fare`, `Job.reply`).

The four things that a transaction can ask for come to two.  A program is waiting when the
value moves, or all gas has been taken and there is none (`Job.Offers`).  An empty output
deposits empty code, which is free.
-/

namespace LedgerExec

namespace Job

variable {j : Job} {paid : View} {e : Execution} {p : Play} {d : Dispatch}

/-! ## What is asked for -/

/-- The gas that is used in the end. -/
def fare (j : Job) : Dispatch → Gas
  | .builtIn _ contract => j.charge contract
  | _ => j.basicCost

/-- What is returned in the end. -/
def reply (j : Job) : Dispatch → Bytes
  | .builtIn _ contract => (j.answerOf contract).toOption.getD []
  | _ => []

/-- A program is invoked. -/
def Invokes (j : Job) : Dispatch → Prop
  | .creation _ => j.transaction.payload.data.isEmpty = false
  | .program _ _ => True
  | _ => False

/-- A built-in contract has an answer, and its gas can be taken. -/
def Answers (j : Job) : Dispatch → Prop
  | .builtIn _ contract =>
    (∃ output, j.answerOf contract = .ok output) ∧
      ∃ left, j.context.gasRules.sub j.transaction.gasLimit (j.charge contract) = .ok left
  | _ => True

theorem toNat_basicCost_le (j : Job) : j.basicCost.toNat ≤ Gas.ceiling.toNat := by
  rw [toNat_basicCost, Gas.toNat_ceiling, Nat.one_shiftLeft]
  omega

/-- The gas limit that a program of the transaction is invoked with. -/
def grant (j : Job) (owner : Address) (state : View) : Gas :=
  (j.context.invocation j.transaction j.index owner j.context.block state).gasLimit

/-- What a run takes to come to that: an answer, the money for the value, and a program that can pay
the intrinsic cost. -/
structure Supported (j : Job) (paid : View) : Prop where
  answers : j.Answers (j.dispatch paid)
  funds : ∃ w, (j.cleared paid).transfer j.transaction.sender j.target
    j.transaction.payload.value = .ok w
  granted : j.Invokes (j.dispatch paid) → ∃ owner v, j.basicCost ≤ j.grant owner v

/-! ## Before the value moves -/

/-- The execution just before its value moves. -/
def staged (j : Job) (e : Execution) : Dispatch → Execution
  | .creation address =>
    let created := { e with newContract := some address }.within (·.create address)
    if j.transaction.payload.data.isEmpty then j.chargeBasic created
    else j.prepare (created.within (·.setUpContract address)) address j.transaction.payload.data
  | .builtIn address contract => j.answer e address contract (j.charge contract)
  | .program address code => j.prepare e address code
  | .plain _ => j.chargeBasic e

/-- What has been written then. -/
theorem entered_staged (houter : e.outer = paid) (hinner : e.inner = {}) :
    j.Entered paid (j.staged e (j.dispatch paid)).inside := by
  have hpush : e.inside = paid.push := by rw [e.inside_of_clean hinner, houter]
  have huntouched {address : Address} (hreceiver : j.transaction.receiver? = some address) :
      j.Entered paid e.inside := by
    rw [hpush]
    exact .untouched (isCreation_of_receiver hreceiver)
  have hdescribes := j.describes_dispatch paid
  cases hdispatch : j.dispatch paid with
  | creation address =>
      rw [hdispatch] at hdescribes
      obtain ⟨hcreates, rfl⟩ := hdescribes
      simp only [staged]
      split
      · change j.Entered paid (e.inside.create j.newAddress)
        rw [hpush]
        exact .created hcreates
      · change j.Entered paid ((e.inside.create j.newAddress).setUpContract j.newAddress)
        rw [hpush]
        exact .contract hcreates
  | builtIn address contract =>
      rw [hdispatch] at hdescribes
      obtain ⟨inner, gasLeft, rentLeft, result, subtraces, hanswer, hwritten⟩ :=
        j.exists_answer e address contract (j.charge contract)
      simp only [staged, hanswer]
      rcases hwritten with rfl | rfl
      · exact huntouched hdescribes.1
      · change j.Entered paid ⟨(adopt address e.inside).top, e.inside.below⟩
        rw [View.top_on_below (below_adopt address e.inside), hpush]
        exact .adopted address hdescribes.1 (by rw [hdescribes.2]; rfl)
  | program address code =>
      rw [hdispatch] at hdescribes
      exact huntouched hdescribes
  | plain address =>
      rw [hdispatch] at hdescribes
      exact huntouched hdescribes

theorem error_staged (j : Job) (e : Execution) (d : Dispatch) :
    (j.staged e d).error = e.error := by
  cases d with
  | creation address =>
      simp only [staged]
      split <;> rfl
  | builtIn address contract => exact j.error_answer e address contract (j.charge contract)
  | program | plain => rfl

/-- Where playing stands when a program has used the intrinsic cost and done nothing else. -/
structure Idle (j : Job) (p : Play) : Prop where
  outcome : p.outcome = .ok ()
  error : p.execution.error = none
  fault : p.program.result.fault = none
  standing : p.program.result.reverted = false
  quiet : p.program.result.Quiet
  output : p.program.result.output = []
  gasUsed : p.program.result.gasUsed = j.basicCost
  gasLeft : p.execution.gasLeft.toNat = j.transaction.gasLimit.toNat - j.basicCost.toNat

theorem codeCost_nil : codeCost [] = 0 := by decide

/-- Empty code is deposited for nothing. -/
theorem Idle.depositNew (h : j.Idle p) : j.Idle (j.depositNew p) := by
  unfold Job.depositNew
  split
  · rename_i address _
    have hpassed : j.refusal? p.execution.gasLeft p.program = none := by
      rw [refusal?_eq_none_iff, h.output]
      exact j.not_refuses_nil _
    have hfree : codeCost p.program.result.output = 0 := by rw [h.output, codeCost_nil]
    have hpaid : codeCost p.program.result.output ≤ p.program.gasLeft := by
      rw [hfree]
      exact Nat.zero_le _
    have hused : (chargedResult p.program.result).gasUsed = j.basicCost := by
      have hcost := j.toNat_basicCost_le
      rw [Gas.toNat_ceiling] at hcost
      rw [chargedResult, hfree, RunResult.spend, ← Unsigned.toNat_inj, Gas.toNat_add, h.gasUsed,
        Unsigned.toNat_zero]
      omega
    have hleft : (Unsigned.subSat p.execution.gasLeft
        (codeCost p.program.result.output)).toNat = p.execution.gasLeft.toNat := by
      rw [hfree, Unsigned.toNat_subSat, Unsigned.toNat_zero, Nat.sub_zero]
    rw [h.standing, if_neg Bool.false_ne_true, deposit_of_paid hpassed hpaid address]
    exact
      { outcome := rfl
        error := h.error
        fault := (fault_chargedResult _).trans h.fault
        standing := (reverted_chargedResult _).trans h.standing
        quiet := h.quiet.spend _
        output := (output_chargedResult _).trans h.output
        gasUsed := hused
        gasLeft := hleft.trans h.gasLeft }
  · exact h

end Job

end LedgerExec
