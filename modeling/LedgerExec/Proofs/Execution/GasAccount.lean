import LedgerExec.Proofs.Execution.Charged
set_option autoImplicit false

/-!
# Where the gas goes

Gas is counted in two places: a result counts what is used, an execution what is
left.  Under the strict rules the two counts add up to the limit at the end of every
run that stands or has reverted, and every other run that fails forfeits all of it
(`Job.Accounted`).

The first phase keeps the sum unless it leaves a program to be played
(`reckoned_perform`); playing restores it where the gas left is computed and keeps it
through the deposit (`accounted_wrapUp`).  No property of the views is used, so the
interpreter may do to its view what it likes.
-/

namespace LedgerExec

namespace Job

variable {j : Job} {outer paid : View} {senders : SenderCache} {I : View → Prop} {e : Execution}

/-! ## The first phase -/

/-- How the gas stands after the first phase. -/
structure Reckoned (j : Job) (e : Execution) : Prop where
  rent : e.rentLeft.toNat ≤ j.transaction.rentGasLimit.toNat
  standing : e.result.reverted = false
  balanced : e.error = none → e.program = none →
    e.result.gasUsed.toNat + e.gasLeft.toNat = j.transaction.gasLimit.toNat

/-- Gas that is counted as used by a result that has used none. -/
theorem toNat_gasUsed_spend_zero {r : RunResult} (hnone : r.gasUsed = 0) {gas : Gas}
    (hgas : gas.toNat ≤ Gas.ceiling.toNat) : (r.spend gas).gasUsed.toNat = gas.toNat := by
  rw [Gas.toNat_ceiling] at hgas
  rw [RunResult.spend, Gas.toNat_add, hnone, Unsigned.toNat_zero]
  omega

theorem Reckoned.moveValue (h : j.Reckoned e) (target : Address) :
    j.Reckoned (j.moveValue e target) := by
  unfold Job.moveValue
  split
  · exact h
  · split
    · exact ⟨h.rent, h.standing, h.balanced⟩
    · exact ⟨h.rent, h.standing, fun herror => nomatch herror⟩

/-- The intrinsic cost alone is charged. -/
theorem reckoned_chargeBasic (hcost : j.basicCost.toNat ≤ j.transaction.gasLimit.toNat)
    (hrent : e.rentLeft = 0) (hresult : e.result = {}) : j.Reckoned (j.chargeBasic e) where
  rent := by
    change e.rentLeft.toNat ≤ _
    rw [hrent, Unsigned.toNat_zero]
    exact Nat.zero_le _
  standing := by
    change e.result.reverted = false
    rw [hresult]
  balanced _ _ := by
    have hused := toNat_gasUsed_spend_zero (r := e.result) (by rw [hresult])
      (Nat.le_trans hcost j.transaction.gasLimit_le_ceiling)
    change (e.result.spend j.basicCost).gasUsed.toNat +
      (Unsigned.subSat j.transaction.gasLimit j.basicCost).toNat = _
    rw [hused, Unsigned.toNat_subSat]
    omega

/-- A program that waits to be played has charged nothing yet. -/
theorem reckoned_prepare (hrent : e.rentLeft = 0) (hresult : e.result = {}) (owner : Address)
    (code : Bytes) : j.Reckoned (j.prepare e owner code) where
  rent := by
    change e.rentLeft.toNat ≤ _
    rw [hrent, Unsigned.toNat_zero]
    exact Nat.zero_le _
  standing := by
    change e.result.reverted = false
    rw [hresult]
  balanced _ hprogram := nomatch hprogram

/-- What the answer of a built-in contract leaves of the counts. -/
theorem consult_counts (j : Job) (e : Execution) (address : Address) (contract : BuiltIn) :
    (j.consult e address contract).rentLeft = e.rentLeft ∧
      (j.consult e address contract).gasLeft = e.gasLeft ∧
      (j.consult e address contract).result.gasUsed = e.result.gasUsed ∧
      (j.consult e address contract).result.reverted = e.result.reverted := by
  simp only [consult]
  split
  · exact ⟨rfl, rfl, rfl, rfl⟩
  · exact ⟨rfl, rfl, rfl, rfl⟩

/-- A built-in contract whose gas is covered, under the strict rules. -/
theorem reckoned_answer (hstrict : j.context.gasRules = .strict) (hresult : e.result = {})
    (address : Address) (contract : BuiltIn) {used : Gas}
    (hcovered : used.toNat ≤ j.transaction.gasLimit.toNat) :
    j.Reckoned (j.answer e address contract used) := by
  obtain ⟨left, hsub⟩ : ∃ left, Gas.sub j.transaction.gasLimit used = .ok left := by
    cases hsub : Gas.sub j.transaction.gasLimit used with
    | ok left => exact ⟨left, rfl⟩
    | error fault =>
        have hless := (Gas.sub_eq_error_iff.mp hsub).1
        omega
  have hsum := Gas.sub_eq_ok_iff.mp hsub
  have htaken : j.takeGas { e with rentLeft := j.transaction.rentGasLimit } used =
      { e with rentLeft := j.transaction.rentGasLimit, gasLeft := left } := by
    simp only [takeGas, hstrict, GasRules.sub, hsub]
  obtain ⟨hrent, hleft, hused, hreverted⟩ := j.consult_counts
    { e with rentLeft := j.transaction.rentGasLimit, gasLeft := left } address contract
  have hspent := toNat_gasUsed_spend_zero (hused.trans (by rw [hresult]))
    (Nat.le_trans hcovered j.transaction.gasLimit_le_ceiling)
  simp only [answer, htaken]
  exact
    { rent := Nat.le_of_eq (congrArg Unsigned.toNat hrent)
      standing := hreverted.trans (by rw [hresult])
      balanced := fun _ _ => by
        change (RunResult.spend _ used).gasUsed.toNat + (Execution.gasLeft _).toNat = _
        rw [hspent, hleft]
        change used.toNat + left.toNat = _
        omega }

theorem reckoned_callBuiltIn (hchain : j.isLocal = false)
    (hstrict : j.context.gasRules = .strict) (hresult : e.result = {}) (address : Address)
    (contract : BuiltIn) : j.Reckoned (j.callBuiltIn e address contract) := by
  simp only [callBuiltIn]
  split
  · exact
      { rent := by
          change j.transaction.rentGasLimit.toNat * 3 / 4 ≤ _
          omega
        standing := by rw [hresult]
        balanced := fun herror => absurd herror (Option.some_ne_none _) }
  · rename_i hcovered
    simp only [hchain, hstrict, GasRules.hasEnough, Unsigned.le_iff] at hcovered
    exact (reckoned_answer hstrict hresult address contract (by simpa using hcovered)).moveValue
      address

/-- The first phase once it is paid. -/
theorem reckoned_perform (hchain : j.isLocal = false) (hstrict : j.context.gasRules = .strict)
    (hcost : j.basicCost.toNat ≤ j.transaction.gasLimit.toNat) (paid : View)
    (senders : SenderCache) :
    j.Reckoned (j.perform { outer := paid, senders, prepaid := !j.isLocal }) := by
  unfold perform
  split
  · unfold create
    split
    · exact (reckoned_chargeBasic hcost rfl rfl).moveValue _
    · exact (reckoned_prepare rfl rfl _ _).moveValue _
  · exact reckoned_callBuiltIn hchain hstrict rfl _ _
  · exact (reckoned_prepare rfl rfl _ _).moveValue _
  · exact (reckoned_chargeBasic hcost rfl rfl).moveValue _

/-! ## The second phase -/

/-- How the gas stands when playing is over. -/
inductive Accounted (j : Job) (f : Execution) : Prop
  /-- what is not used is left -/
  | balanced (ending : f.error = none ∨ f.result.reverted = true ∧ f.result.fault = none)
      (sum : f.result.gasUsed.toNat + f.gasLeft.toNat = j.transaction.gasLimit.toNat)
  /-- nothing is left, and nothing is to be refunded -/
  | forfeited (failed : f.error ≠ none)
      (other : ¬(f.result.reverted = true ∧ f.result.fault = none)) (left : f.gasLeft = 0)
      (quiet : f.result.Quiet)

/-- Where playing stands once the interpreter has returned, as far as gas goes. -/
structure Metered (j : Job) (p : Play) : Prop where
  outcome : p.outcome = .ok ()
  error : p.execution.error = none
  depositRefused : p.execution.depositRefused = false
  newContract : ∀ address, p.execution.newContract = some address → address = j.newAddress
  /-- the program knows the whole limit -/
  invoked : j.transaction.gasLimit.toNat ≤ p.program.invocation.gasLimit.toNat

/-- What the execution counts as left the program can pay, as it knows the whole limit. -/
theorem Metered.affords {p : Play} (h : j.Metered p)
    (hsum : p.program.result.gasUsed.toNat + p.execution.gasLeft.toNat =
      j.transaction.gasLimit.toNat) : p.execution.gasLeft ≤ p.program.gasLeft := by
  have hinvoked := h.invoked
  rw [Unsigned.le_iff, Program.gasLeft, Unsigned.toNat_subSat]
  omega

/-- A run that is stopped has a fault in its result, that of its program if there was one. -/
theorem fault_close_of_error {p : Play} {fault : RunFault} (houtcome : p.outcome = .error fault) :
    (close p).result.fault ≠ none := by
  have hkept (e : Execution) : (keepRefused e).result = e.result := by
    obtain ⟨outer, inner, hkept⟩ := exists_keepRefused e
    rw [hkept]
  simp only [close, houtcome, hkept, abort]
  split
  · rename_i hfault
    exact Option.isSome_iff_ne_none.mp hfault
  · exact Option.some_ne_none fault

/-- A run that a fault has stopped forfeits its gas. -/
theorem accounted_of_error {p : Play} {fault : RunFault} (houtcome : p.outcome = .error fault)
    (hnew : p.execution.depositRefused = true → p.execution.newContract = some j.newAddress)
    (hquiet : p.program.result.Quiet) : j.Accounted (close p) := by
  have hfault := fault_close_of_error houtcome
  obtain ⟨result, hresult, hclose⟩ := close_of_error houtcome hnew
  rw [hclose] at hfault ⊢
  refine .forfeited (Option.some_ne_none _) (fun h => hfault h.2) rfl ?_
  rcases hresult with rfl | rfl
  · exact hquiet
  · exact hquiet.fail fault

/-- The end of a program keeps the counts, or forfeits the gas for a fault. -/
theorem accounted_conclude {p : Play} (h : j.Metered p)
    (hsum : p.program.result.gasUsed.toNat + p.execution.gasLeft.toNat =
      j.transaction.gasLimit.toNat) : j.Accounted (close (conclude p)) := by
  cases hfault : p.program.result.fault with
  | some fault =>
      rw [conclude_of_fault fault hfault]
      exact accounted_of_error rfl (fun hrefused => absurd hrefused (by simp [h.depositRefused]))
        (RunResult.quiet_discard _)
  | none =>
      cases hreverted : p.program.result.reverted with
      | true =>
          have hconclude : conclude p =
              { execution := { p.execution.rollback with error := some .reverted }
                program := { p.program with result := p.program.result.discard } } := by
            simp [conclude, hfault, hreverted]
          rw [hconclude]
          exact .balanced (.inr ⟨hreverted, hfault⟩) hsum
      | false =>
          have hconclude : conclude p = p := by simp [conclude, hfault, hreverted]
          simp only [hconclude, close, h.outcome]
          exact .balanced (.inl h.error) hsum

/-- The deposit moves the price of the code from what is left to what is used, if it comes to
that. -/
theorem accounted_wrapUp {p : Play} (h : j.Metered p)
    (hsum : p.program.result.gasUsed.toNat + p.execution.gasLeft.toNat =
      j.transaction.gasLimit.toNat) : j.Accounted (close (j.wrapUp p)) := by
  have hceiling := j.transaction.gasLimit_le_ceiling
  rw [Gas.toNat_ceiling] at hceiling
  have hdeposited := deposited_depositNew j p
  simp only [wrapUp]
  generalize j.depositNew p = deposited at hdeposited ⊢
  cases hdeposited with
  | skipped =>
      simp only [h.outcome]
      exact accounted_conclude h hsum
  | refused address hcreated _ _ fault =>
      simp only [h.outcome]
      rw [conclude_of_fault fault rfl]
      exact accounted_of_error rfl (fun _ => h.newContract address hcreated ▸ hcreated)
        (RunResult.quiet_discard _)
  | unpaid _ cost left hafforded fault hcharge =>
      have hshort := (Program.charge_eq_error_iff.mp hcharge).1
      have haffords := Unsigned.le_iff.mp (h.affords hsum)
      rw [Unsigned.le_iff] at hshort
      omega
  | stored _ address cost left hafforded program hcharge =>
      obtain ⟨-, rfl⟩ := Program.charge_eq_ok_iff.mp hcharge
      have hstored : j.Metered
          { execution := { p.execution with gasLeft := left }.within
              (·.saveCode address (p.program.result.spend cost).output)
            program := { p.program with result := p.program.result.spend cost } } :=
        { outcome := rfl
          error := h.error
          depositRefused := h.depositRefused
          newContract := h.newContract
          invoked := h.invoked }
      refine accounted_conclude hstored ?_
      change (Gas.add p.program.result.gasUsed cost).toNat + left.toNat = _
      rw [Gas.toNat_add]
      omega

/-- What follows an interpreter that has not used more gas than there is. -/
theorem accounted_afterInterpreter {p : Play} (h : j.Metered p)
    (hused : p.program.result.gasUsed.toNat ≤ j.transaction.gasLimit.toNat) :
    j.Accounted (close (j.afterInterpreter p)) := by
  unfold afterInterpreter
  split
  · rename_i fault hsub
    have hover := (Gas.sub_eq_error_iff.mp hsub).1
    omega
  · rename_i left hsub
    have hsum := Gas.sub_eq_ok_iff.mp hsub
    have hleft : j.Metered { p with execution := { p.execution with gasLeft := left } } :=
      { h with }
    refine accounted_wrapUp hleft ?_
    change p.program.result.gasUsed.toNat + left.toNat = _
    omega

/-- A program that is invoked for a transaction knows its whole limit. -/
theorem gasLimit_le_of_invoked (hmaker : j.context.invocation = Invocation.ofTransaction)
    (hprepared : j.Prepared paid I e) {program : Program} (hprogram : e.program = some program) :
    j.transaction.gasLimit.toNat ≤ program.invocation.gasLimit.toNat := by
  obtain ⟨-, owner, v, hinvocation⟩ := hprepared.program program hprogram
  rw [hinvocation, hmaker]
  change _ ≤ j.transaction.payload.gasLimit.toNat
  rw [Transaction.gasLimit, Gas.toNat_cap]
  omega

/-- The interpreter, if it does not use more gas than there is. -/
theorem metered_interpret (hmaker : j.context.invocation = Invocation.ofTransaction)
    (hcost : j.basicCost.toNat ≤ j.transaction.gasLimit.toNat)
    (hprepared : j.Prepared paid I e) (herror : e.error = none) {program charged : Program}
    (hprogram : e.program = some program)
    (hcharge : program.charge j.basicCost "TRANSACTION COST" = .ok charged)
    (hinterpreter : ∀ program v, j.handed? e = some (program, v) →
      (j.outcome program v).gasUsed ≤ j.transaction.gasLimit) :
    j.Metered (j.interpret e charged) ∧
      (j.interpret e charged).program.result.gasUsed.toNat ≤ j.transaction.gasLimit.toNat := by
  have hnew := fun address ha => (hprepared.newContract address ha).2
  have hinvoked : j.transaction.gasLimit.toNat ≤ charged.invocation.gasLimit.toNat := by
    have hstarted := gasLimit_le_of_invoked hmaker hprepared hprogram
    obtain ⟨-, rfl⟩ := Program.charge_eq_ok_iff.mp hcharge
    exact hstarted
  unfold interpret
  split
  · rename_i hruns
    have hhanded : j.handed? e = some (charged, e.inside) := by
      simp [handed?, hprogram, hcharge, hruns]
    exact ⟨⟨rfl, herror, hprepared.depositRefused, hnew, hinvoked⟩,
      Unsigned.le_iff.mp (hinterpreter charged e.inside hhanded)⟩
  · have hspent := toNat_gasUsed_spend_zero (r := program.result)
      (by rw [(hprepared.program program hprogram).1])
      (Nat.le_trans hcost j.transaction.gasLimit_le_ceiling)
    refine ⟨⟨rfl, herror, hprepared.depositRefused, hnew, hinvoked⟩, ?_⟩
    obtain ⟨-, rfl⟩ := Program.charge_eq_ok_iff.mp hcharge
    exact Nat.le_trans (Nat.le_of_eq hspent) hcost

/-- The second phase, for programs that are invoked for the transaction. -/
theorem accounted_complete (hmaker : j.context.invocation = Invocation.ofTransaction)
    (hcost : j.basicCost.toNat ≤ j.transaction.gasLimit.toNat)
    (hprepared : j.Prepared paid I e) (hreckoned : j.Reckoned e)
    (hinterpreter : ∀ program v, j.handed? e = some (program, v) →
      (j.outcome program v).gasUsed ≤ j.transaction.gasLimit) :
    j.Accounted (j.complete e) := by
  unfold complete
  cases hprogram : e.program with
  | none =>
      cases herror : e.error with
      | none => exact .balanced (.inl herror) (hreckoned.balanced herror hprogram)
      | some error =>
          have hfailed : e.error ≠ none := by simp [herror]
          have hother : ¬(e.result.reverted = true ∧ e.result.fault = none) := by
            simp [hreckoned.standing]
          exact .forfeited hfailed hother (hprepared.stopped hfailed).2.2 hprepared.quiet
  | some program =>
      have herror := hprepared.error_eq_none hprogram
      simp only [play]
      cases hcharge : program.charge j.basicCost "TRANSACTION COST" with
      | error fault =>
          have hquiet : program.result.Quiet := by
            rw [(hprepared.program program hprogram).1]
            exact RunResult.quiet_empty
          exact accounted_of_error rfl
            (fun hrefused => absurd hrefused (by simp [hprepared.depositRefused])) hquiet
      | ok charged =>
          obtain ⟨hmetered, hused⟩ :=
            metered_interpret hmaker hcost hprepared herror hprogram hcharge hinterpreter
          exact accounted_afterInterpreter hmetered hused

/-! ## What playing leaves alone

Neither the rent gas nor the mark of a paid price is touched. -/

theorem exists_depositNew (j : Job) (p : Play) :
    ∃ outer inner gasLeft depositRefused,
      (j.depositNew p).execution = { p.execution with outer, inner, gasLeft, depositRefused } := by
  have hdeposited := deposited_depositNew j p
  generalize j.depositNew p = deposited at hdeposited
  cases hdeposited <;> exact ⟨_, _, _, _, rfl⟩

theorem exists_conclude (p : Play) :
    ∃ outer inner error, (conclude p).execution = { p.execution with outer, inner, error } := by
  have hconcluded := concluded_conclude p
  generalize conclude p = concluded at hconcluded
  cases hconcluded <;> exact ⟨_, _, _, rfl⟩

theorem exists_wrapUp (j : Job) (p : Play) :
    ∃ outer inner gasLeft error depositRefused,
      (j.wrapUp p).execution =
        { p.execution with outer, inner, gasLeft, error, depositRefused } := by
  obtain ⟨outer, inner, gasLeft, depositRefused, hdeposit⟩ := j.exists_depositNew p
  simp only [wrapUp]
  split
  · exact ⟨outer, inner, gasLeft, p.execution.error, depositRefused, hdeposit⟩
  · obtain ⟨outer, inner, error, hconclude⟩ := exists_conclude (j.depositNew p)
    exact ⟨outer, inner, gasLeft, error, depositRefused, by rw [hconclude, hdeposit]⟩

/-- Playing leaves all else of the execution as the first phase has left it. -/
theorem exists_complete (j : Job) (e : Execution) :
    ∃ outer inner gasLeft error depositRefused result program,
      j.complete e =
        { e with outer, inner, gasLeft, error, depositRefused, result, program } := by
  unfold complete
  split
  · exact ⟨_, _, _, _, _, _, _, rfl⟩
  · rename_i program hprogram
    obtain ⟨outer, inner, gasLeft, error, result, hclose, -⟩ := exists_close (j.play e program)
    have hplay : ∃ outer inner gasLeft error depositRefused,
        (j.play e program).execution =
          { e with outer, inner, gasLeft, error, depositRefused } := by
      unfold play
      split
      · exact ⟨_, _, _, _, _, rfl⟩
      · rename_i charged hcharge
        have hinterpret : ∃ outer inner,
            (j.interpret e charged).execution = { e with outer, inner } := by
          unfold interpret
          split
          · exact ⟨_, _, rfl⟩
          · exact ⟨_, _, rfl⟩
        obtain ⟨outer, inner, hinterpret⟩ := hinterpret
        unfold afterInterpreter
        split
        · exact ⟨outer, inner, e.gasLeft, e.error, e.depositRefused, hinterpret⟩
        · obtain ⟨outer, inner, gasLeft, error, depositRefused, hwrapped⟩ := j.exists_wrapUp
            { j.interpret e charged with
              execution := { (j.interpret e charged).execution with gasLeft := _ } }
          refine ⟨outer, inner, gasLeft, error, depositRefused, ?_⟩
          rw [hwrapped, hinterpret]
    obtain ⟨_, _, _, _, depositRefused, hplay⟩ := hplay
    exact ⟨outer, inner, gasLeft, error, depositRefused, result, _, by rw [hclose, hplay]⟩

theorem rentLeft_complete (j : Job) (e : Execution) : (j.complete e).rentLeft = e.rentLeft := by
  obtain ⟨outer, inner, gasLeft, error, depositRefused, result, program, hcomplete⟩ :=
    j.exists_complete e
  rw [hcomplete]

theorem prepaid_complete (j : Job) (e : Execution) : (j.complete e).prepaid = e.prepaid := by
  obtain ⟨outer, inner, gasLeft, error, depositRefused, result, program, hcomplete⟩ :=
    j.exists_complete e
  rw [hcomplete]

/-! ## The whole -/

/-- The account of all gas of an executed transaction, with its settlement `s` and the refund that
the run has recorded. -/
structure GasAccount (j : Job) (recorded : Gas) (e : Execution) (s : Settlement) : Prop where
  /-- a run that stands or reverts has used what is not left -/
  spent : (j.receipt e).isSuccessful = true ∨ e.result.reverted = true ∧ e.result.fault = none →
    s.gasUsed.toNat + s.gasLeft.toNat = j.transaction.gasLimit.toNat
  /-- a run that fails in any other way leaves nothing -/
  forfeited : ¬((j.receipt e).isSuccessful = true ∨
      e.result.reverted = true ∧ e.result.fault = none) →
    s.gasLeft = 0 ∧ s.gasRefund = 0
  refund : s.gasRefund.toNat =
    min (recorded.toNat + Gas.perDestruction.toNat * e.result.destroyed.size)
      (s.gasUsed.toNat / 2)
  back : e.gasLeft.toNat = s.gasLeft.toNat + s.gasRefund.toNat
  within_limit : e.gasLeft ≤ j.transaction.gasLimit
  charged : (j.receipt e).gasUsed.toNat + e.gasLeft.toNat = j.transaction.gasLimit.toNat
  rent : e.rentLeft ≤ j.transaction.rentGasLimit
  fees : e.paidFees = (j.receipt e).gasUsed.price j.transaction.payload.gasPrice

/-- The refund of a settlement: what the run has recorded and the price of every destroyed account,
at most half of the gas used.  The ceiling of gas is never met. -/
theorem toNat_gasRefund (j : Job) (r : RunResult) (left : Gas) :
    (j.settlement (creditDestroyed r) left).gasRefund.toNat =
      min (r.refund.toNat + Gas.perDestruction.toNat * r.destroyed.size)
        (r.gasUsed.toNat / 2) := by
  have hused := r.gasUsed.isLt
  have hprice : Gas.perDestruction.toNat = 24000 := by decide
  change (Gas.cappedRefund (creditDestroyed r).refund r.gasUsed).toNat = _
  rw [Gas.cappedRefund, Unsigned.toNat_min, Gas.toNat_half, refund_creditDestroyed, Gas.toNat_add,
    Gas.toNat_mul, Unsigned.toNat_clamp, hprice]
  omega

theorem isSuccessful_receipt (j : Job) (e : Execution) :
    (j.receipt e).isSuccessful = true ↔ e.error = none := by
  cases herror : e.error <;> simp [receipt, Receipt.isSuccessful, herror]

/-- A quiet result has nothing to refund. -/
theorem gasRefund_of_quiet (j : Job) {r : RunResult} (hquiet : r.Quiet) (left : Gas) :
    (j.settlement (creditDestroyed r) left).gasRefund = 0 := by
  have hrefund := j.toNat_gasRefund r left
  rw [hquiet.refund, hquiet.destroyed, Std.ExtTreeSet.size_empty, Unsigned.toNat_zero] at hrefund
  rw [← Unsigned.toNat_inj, Unsigned.toNat_zero]
  omega

/-- No more gas goes back than there was. -/
theorem Accounted.back_le (h : j.Accounted e) :
    e.gasLeft.toNat + (j.settlement (creditDestroyed e.result) e.gasLeft).gasRefund.toNat ≤
      j.transaction.gasLimit.toNat := by
  cases h with
  | balanced _ hsum =>
      have hrefund := j.toNat_gasRefund e.result e.gasLeft
      omega
  | forfeited _ _ hzero hquiet =>
      rw [j.gasRefund_of_quiet hquiet, hzero, Unsigned.toNat_zero]
      exact Nat.zero_le _

/-- What goes back is what is left and the refund, as their sum stays below the ceiling. -/
theorem toNat_gasLeft_finalize (hchain : j.isLocal = false)
    (hstrict : j.context.gasRules = .strict) (h : j.Accounted e) :
    (j.finalize e).gasLeft.toNat =
      e.gasLeft.toNat + (j.settlement (creditDestroyed e.result) e.gasLeft).gasRefund.toNat := by
  have hceiling := j.transaction.gasLimit_le_ceiling
  have hback := h.back_le
  rw [Gas.toNat_ceiling] at hceiling
  rw [finalize_on_chain hchain, hstrict]
  change (Gas.add e.gasLeft _).toNat = _
  rw [Gas.toNat_add]
  omega

/-- Whether the run stands or has reverted is seen at the end as it was before settling. -/
theorem ending_finalize_iff (hchain : j.isLocal = false) :
    ((j.receipt (j.finalize e)).isSuccessful = true ∨
        (j.finalize e).result.reverted = true ∧ (j.finalize e).result.fault = none) ↔
      e.error = none ∨ e.result.reverted = true ∧ e.result.fault = none := by
  rw [isSuccessful_receipt, finalize_on_chain hchain]
  exact Iff.rfl

/-- The account of a run that has paid, once it is settled. -/
theorem gasAccount_finalize (hchain : j.isLocal = false)
    (hstrict : j.context.gasRules = .strict) (h : j.Accounted e)
    (hrent : e.rentLeft ≤ j.transaction.rentGasLimit)
    (hfees : (j.finalize e).paidFees =
      (j.receipt (j.finalize e)).gasUsed.price j.transaction.payload.gasPrice) :
    j.GasAccount e.result.refund (j.finalize e)
      (j.settlement (creditDestroyed e.result) e.gasLeft) := by
  have hback := toNat_gasLeft_finalize hchain hstrict h
  have hbound := h.back_le
  have hending := ending_finalize_iff (j := j) (e := e) hchain
  exact
    { spent := fun hends => by
        cases h with
        | balanced _ hsum => exact hsum
        | forfeited hfailed hother =>
            rcases hending.mp hends with hnone | hreverted
            · exact absurd hnone hfailed
            · exact absurd hreverted hother
      forfeited := fun hends => by
        cases h with
        | balanced hstands _ => exact absurd (hending.mpr hstands) hends
        | forfeited _ _ hzero hquiet => exact ⟨hzero, j.gasRefund_of_quiet hquiet _⟩
      refund := by
        rw [j.toNat_gasRefund, finalize_on_chain hchain, destroyed_creditDestroyed]
        rfl
      back := hback
      within_limit := by
        rw [Unsigned.le_iff, hback]
        exact hbound
      charged := by
        have hcharged := toNat_gasUsed_finalize hchain e
        change (j.gasUsed (j.finalize e)).toNat + _ = _
        omega
      rent := by
        rw [finalize_on_chain hchain]
        exact hrent
      fees := hfees }

/-- A transaction that has paid in advance could be paid for. -/
theorem debit_of_prepaid (hchain : j.isLocal = false)
    (haccepted : (j.execute outer senders).accepted = true)
    (hprepaid : (j.execute outer senders).prepaid = true) :
    ∃ paid, (outer.raiseNonce j.transaction.sender).debit j.transaction.sender j.prepayment =
      .ok paid := by
  rw [execute_of_accepted haccepted, finalize_on_chain hchain] at hprepaid
  cases hdebit :
      (outer.raiseNonce j.transaction.sender).debit j.transaction.sender j.prepayment with
  | ok paid => exact ⟨paid, rfl⟩
  | error fault =>
      rw [played_of_unpaid hchain hdebit] at hprepaid
      exact nomatch hprepaid

/-- The first two phases of an accepted transaction that has paid, under the strict rules. -/
theorem accounted_played (hchain : j.isLocal = false) (hstrict : j.context.gasRules = .strict)
    (hmaker : j.context.invocation = Invocation.ofTransaction)
    (hinterpreter : ∀ program v, j.interpreterCall? outer senders = some (program, v) →
      (j.outcome program v).gasUsed ≤ j.transaction.gasLimit)
    (haccepted : (j.execute outer senders).accepted = true)
    (hprepaid : (j.execute outer senders).prepaid = true) :
    j.Accounted (j.played outer (j.validate outer senders).2) ∧
      (j.played outer (j.validate outer senders).2).rentLeft ≤ j.transaction.rentGasLimit := by
  have hcost := basicCost_le_of_accepted hchain haccepted
  obtain ⟨paid, hdebit⟩ := debit_of_prepaid hchain haccepted hprepaid
  have hrun := run_of_paid hchain hdebit (j.validate outer senders).2
  have hprepared := prepared_perform (j.stable_true paid) (j.validate outer senders).2
  have hreckoned := reckoned_perform hchain hstrict hcost paid (j.validate outer senders).2
  rw [← hrun] at hprepared hreckoned
  refine ⟨accounted_complete hmaker hcost hprepared hreckoned hinterpreter, ?_⟩
  rw [Unsigned.le_iff, played, rentLeft_complete]
  exact hreckoned.rent

/-- All gas of a transaction that has paid for it, under the strict rules. -/
theorem gasAccount_execute (hchain : j.isLocal = false)
    (hstrict : j.context.gasRules = .strict)
    (hmaker : j.context.invocation = Invocation.ofTransaction)
    (hinterpreter : ∀ program v, j.interpreterCall? outer senders = some (program, v) →
      (j.outcome program v).gasUsed ≤ j.transaction.gasLimit)
    (haccepted : (j.execute outer senders).accepted = true)
    (hprepaid : (j.execute outer senders).prepaid = true) :
    ∃ s, (j.execute outer senders).settlement = some s ∧
      j.GasAccount (j.played outer (j.validate outer senders).2).result.refund
        (j.execute outer senders) s := by
  have hfees := paidFees_execute hchain haccepted
  rw [if_pos hprepaid] at hfees
  obtain ⟨haccounted, hrent⟩ :=
    accounted_played hchain hstrict hmaker hinterpreter haccepted hprepaid
  rw [execute_of_accepted haccepted] at hfees ⊢
  exact ⟨_, by rw [finalize_on_chain hchain],
    gasAccount_finalize hchain hstrict haccounted hrent hfees⟩

/-- A call of a contract that records a refund and destroys itself; half of the gas that it uses is
less than both together. -/
def refundedCall : Job :=
  sample
    { gasPrice := 3
      gasLimit := 50000
      rentGasLimit := 1000
      receiver := Address.sample.toBytes
      value := 8 }
    [([1],
      [ .act { name := "SPEND", gas := 5000 } (.spend 5000 "work"),
        .act { name := "REFUND" } (.refund 3000),
        .act { name := "DESTROY" } .markDestroyed ])]

theorem gasAccount_refundedCall :
    ∃ s, (refundedCall.execute View.sample (SenderCache.ofCapacity 1)).settlement = some s ∧
      s.gasUsed.toNat + s.gasLeft.toNat = 50000 ∧
      s.gasRefund.toNat = min (3000 + 24000) (s.gasUsed.toNat / 2) ∧
      (refundedCall.receipt
        (refundedCall.execute View.sample (SenderCache.ofCapacity 1))).gasUsed.toNat = 13000 := by
  have hfacts :
      refundedCall.context.gasRules = .strict ∧
        (refundedCall.execute View.sample (SenderCache.ofCapacity 1)).accepted = true ∧
        (refundedCall.execute View.sample (SenderCache.ofCapacity 1)).prepaid = true ∧
        (refundedCall.execute View.sample (SenderCache.ofCapacity 1)).error = none ∧
        (refundedCall.execute View.sample (SenderCache.ofCapacity 1)).gasLeft.toNat = 37000 ∧
        (refundedCall.execute View.sample
          (SenderCache.ofCapacity 1)).result.destroyed.size = 1 ∧
        (refundedCall.played View.sample (refundedCall.validate View.sample
          (SenderCache.ofCapacity 1)).2).result.refund.toNat = 3000 ∧
        refundedCall.transaction.gasLimit.toNat = 50000 ∧
        Gas.perDestruction.toNat = 24000 ∧
        ∀ call ∈ refundedCall.interpreterCall? View.sample (SenderCache.ofCapacity 1),
          (refundedCall.outcome call.1 call.2).gasUsed ≤ refundedCall.transaction.gasLimit := by
    decide +kernel
  obtain ⟨hstrict, haccepted, hprepaid, herror, hleft, hdestroyed, hrecorded, hlimit, hprice,
    hcalls⟩ := hfacts
  obtain ⟨s, hsettled, haccount⟩ := gasAccount_execute rfl hstrict rfl
    (fun program v hcall => hcalls (program, v) hcall) haccepted hprepaid
  have hspent := haccount.spent (.inl ((isSuccessful_receipt _ _).mpr herror))
  have hrefund := haccount.refund
  have hcharged := haccount.charged
  rw [hrecorded, hdestroyed, hprice] at hrefund
  refine ⟨s, hsettled, hspent.trans hlimit, hrefund, ?_⟩
  omega

end Job

end LedgerExec
