import LedgerExec.Proofs.Execution.Settled
set_option autoImplicit false

/-!
# What a program is invoked with

The program that an execution shows at its end was made by the invocation maker of the
context, for the transaction, its index in the block and the header
(`invocation_execute`).  Playing a program changes what it has done, never what it was
invoked with, whatever the interpreter does.
-/

namespace LedgerExec

namespace Job

variable {j : Job} {outer : View} {senders : SenderCache}

theorem invocation_wrapUp (j : Job) (p : Play) :
    (j.wrapUp p).program.invocation = p.program.invocation := by
  have hdeposited : (j.depositNew p).program.invocation = p.program.invocation := by
    have hcases := deposited_depositNew j p
    generalize j.depositNew p = deposited at hcases
    cases hcases with
    | skipped => rfl
    | refused => rfl
    | unpaid => rfl
    | stored _ address cost left _ program hcharge =>
        obtain ⟨-, rfl⟩ := Program.charge_eq_ok_iff.mp hcharge
        rfl
  have hconcluded (p : Play) : (conclude p).program.invocation = p.program.invocation := by
    have hcases := concluded_conclude p
    generalize conclude p = concluded at hcases
    cases hcases <;> rfl
  simp only [wrapUp]
  split
  · exact hdeposited
  · exact (hconcluded _).trans hdeposited

theorem invocation_play (j : Job) (e : Execution) (program : Program) :
    (j.play e program).program.invocation = program.invocation := by
  unfold play
  split
  · rfl
  · rename_i charged hcharge
    have hinterpreted : (j.interpret e charged).program.invocation = program.invocation := by
      obtain ⟨-, rfl⟩ := Program.charge_eq_ok_iff.mp hcharge
      unfold interpret
      split <;> rfl
    unfold afterInterpreter
    split
    · exact hinterpreted
    · exact (j.invocation_wrapUp _).trans hinterpreted

/-- The program of a run that is over is the one that was played. -/
theorem program_close (p : Play) : (close p).program = some p.program := by
  obtain ⟨outer, inner, gasLeft, error, result, hclose, -⟩ := exists_close p
  rw [hclose]

/-- Whatever program an executed transaction shows was invoked for it. -/
theorem invocation_execute (hchain : j.isLocal = false)
    (haccepted : (j.execute outer senders).accepted = true) {program : Program}
    (hprogram : (j.execute outer senders).program = some program) :
    ∃ owner v, program.invocation =
      j.context.invocation j.transaction j.index owner j.context.block v := by
  rw [execute_of_accepted haccepted] at hprogram
  have hplayed : (j.played outer (j.validate outer senders).2).program = some program := by
    simp only [finalize, hchain, Bool.false_eq_true, if_false] at hprogram
    exact hprogram
  rcases run_cases hchain outer (j.validate outer senders).2 with
    ⟨fault, -, hrun⟩ | ⟨paid, -, hrun⟩
  · rw [played, hrun] at hplayed
    exact absurd hplayed (Option.some_ne_none program).symm
  · have hprepared := prepared_perform (j.stable_true paid) (j.validate outer senders).2
    rw [played, hrun, complete] at hplayed
    split at hplayed
    · rename_i hnone
      have hcommitted : (none : Option Program) = some program := hnone.symm.trans hplayed
      exact absurd hcommitted.symm (Option.some_ne_none program)
    · rename_i started hstarted
      obtain ⟨-, owner, v, hinvocation⟩ := hprepared.program started hstarted
      rw [program_close] at hplayed
      have hsame := invocation_play j
        (j.perform { outer := paid, senders := (j.validate outer senders).2, prepaid := !j.isLocal })
        started
      rw [Option.some.inj hplayed] at hsame
      exact ⟨owner, v, hsame.trans hinvocation⟩

end Job

end LedgerExec
