import Mathlib.Data.List.Induction
import LedgerExec.Proofs.Block.Ancestry
import LedgerExec.Proofs.Execution.Transfers
set_option autoImplicit false

/-!
# Traces of executed transactions

Of each transaction that ran the trace of its last run is kept (`getElem?_tracesOf`).  It is the
trace of a program if the run has one, and a run has one only if the transaction asked for it: for
the code of an account or for init code (`Job.asksProgram_of_accepted`).
-/

namespace LedgerExec

namespace Job

variable {j : Job} {e : Execution} {outer : View} {senders : SenderCache}

/-! ## Runs without a program -/

/-- The transaction asks for a program, which is the code of an account or init code. -/
def AsksProgram (j : Job) (outer : View) : Prop :=
  match j.dispatch outer with
  | .creation _ => j.transaction.payload.data ≠ []
  | .program _ _ => True
  | .builtIn _ _ | .plain _ => False

theorem program_moveValue (hnone : e.program = none) (target : Address) :
    (j.moveValue e target).program = none := by
  unfold moveValue
  split
  · exact hnone
  · split
    · exact hnone
    · rfl

theorem program_callBuiltIn (hnone : e.program = none) (address : Address) (contract : BuiltIn) :
    (j.callBuiltIn e address contract).program = none := by
  unfold callBuiltIn
  dsimp only
  split
  · exact hnone
  · exact program_moveValue (answered_answer hnone address contract _).program address

theorem program_create_of_empty (hnone : e.program = none) (hempty : j.transaction.payload.data = [])
    (address : Address) : (j.create e address).program = none := by
  simp only [create, hempty, List.isEmpty_nil, if_true]
  refine program_moveValue ?_ address
  exact hnone

theorem program_perform (hnone : e.program = none) (hother : ¬j.AsksProgram e.outer) :
    (j.perform e).program = none := by
  unfold AsksProgram at hother
  unfold perform
  cases hdispatch : j.dispatch e.outer with
  | creation address =>
      rw [hdispatch] at hother
      exact program_create_of_empty hnone (Decidable.not_not.mp hother) address
  | builtIn address contract => exact program_callBuiltIn hnone address contract
  | program address code =>
      rw [hdispatch] at hother
      exact absurd trivial hother
  | plain address =>
      refine program_moveValue ?_ address
      exact hnone

/-- Paying in advance changes no code, and so nothing about what is asked for. -/
theorem program_run (hchain : j.isLocal = false) (hother : ¬j.AsksProgram outer)
    (senders : SenderCache) : (j.run { outer, senders }).program = none := by
  rcases run_cases hchain outer senders with ⟨fault, -, hrun⟩ | ⟨paid, hdebit, hrun⟩
  · rw [hrun]
  · rw [hrun]
    refine program_perform rfl ?_
    have hshows := (Effect.shows_raiseNonce outer j.transaction.sender).trans
      (Effect.shows_debit hdebit)
    unfold AsksProgram at hother ⊢
    rw [dispatch_congr hshows.code?]
    exact hother

/-- An accepted transaction runs a program only if it asks for one. -/
theorem asksProgram_of_accepted (hchain : j.isLocal = false)
    (haccepted : (j.execute outer senders).accepted = true)
    (hprogram : (j.execute outer senders).program ≠ none) : j.AsksProgram outer := by
  refine Classical.byContradiction fun hother => hprogram ?_
  have hrun := program_run hchain hother (j.validate outer senders).2
  rw [execute_of_accepted haccepted, finalize_on_chain hchain, played, complete, hrun]
  exact hrun

/-- The trace is that of a program if the run has one. -/
theorem trace_of_program {program : Program} (hprogram : e.program = some program) :
    ∃ t, j.trace e = .program t := by
  unfold trace
  rw [hprogram]
  exact ⟨_, rfl⟩

theorem trace_of_no_program (hprogram : e.program = none) : ∃ t, j.trace e = .summarized t := by
  unfold trace
  rw [hprogram]
  exact ⟨_, rfl⟩

end Job

/-! ## Runs of a scenario -/

/-- The last of the runs of the transaction with a digest. -/
def lastRun? (runs : List (Job × Execution)) (digest : Digest) : Option (Job × Execution) :=
  runs.reverse.find? fun run => run.1.transaction.hash = digest

/-- Of each transaction the trace of its last run is kept. -/
theorem getElem?_tracesOf (runs : List (Job × Execution)) (digest : Digest) :
    (tracesOf runs)[digest]? = (lastRun? runs digest).map fun run => run.1.trace run.2 := by
  induction runs using List.reverseRecOn with
  | nil => rfl
  | append_singleton runs run ih =>
      have hinsert : tracesOf (runs ++ [run]) =
          (tracesOf runs).insert run.1.transaction.hash (run.1.trace run.2) := by
        rw [tracesOf, List.foldl_append]
        rfl
      rw [hinsert, Std.ExtTreeMap.getElem?_insert, ih, lastRun?, lastRun?, List.reverse_append,
        List.reverse_singleton, List.singleton_append, List.find?_cons]
      by_cases hsame : run.1.transaction.hash = digest
      · simp [hsame]
      · simp [hsame]

namespace ScenarioProgress

variable {p q : ScenarioProgress}

/-- The accepted transactions of all blocks, each as it was executed. -/
def runs (p : ScenarioProgress) : List (Job × Execution) :=
  p.blocks.flatMap fun (_, outcome) => outcome.runs

/-- Every run is the execution of an accepted transaction on chain. -/
def Genuine (p : ScenarioProgress) : Prop :=
  ∀ run ∈ p.runs, run.1.isLocal = false ∧ run.2.accepted = true ∧
    ∃ view senders, run.2 = run.1.execute view senders

theorem Genuine.next (h : p.Genuine) (b : ScenarioBlock) (transactions : List Transaction) :
    (p.next b transactions).Genuine := by
  intro run hrun
  have hruns : (p.next b transactions).runs = p.runs ++
      (p.executor.execute ⟨b.header p.parent, transactions⟩ p.view).runs := by
    rw [runs, ScenarioProgress.next, List.flatMap_append, List.flatMap_singleton]
    rfl
  rw [hruns, List.mem_append] at hrun
  rcases hrun with hearlier | hnew
  · exact h run hearlier
  · obtain ⟨i, hplace⟩ := List.getElem?_of_mem hnew
    have hexecuted := (p.executor.coherent_execute ⟨b.header p.parent, transactions⟩
      p.view).executed i run hplace
    exact ⟨hexecuted.on_chain, hexecuted.accepted, hexecuted.execution⟩

theorem Genuine.foldlM {blocks : List ScenarioBlock} (h : p.Genuine)
    (hrun : blocks.foldlM Scenario.step p = .ok q) : q.Genuine := by
  induction blocks generalizing p with
  | nil =>
      obtain rfl := Except.ok.inj hrun
      exact h
  | cons b rest ih =>
      rw [List.foldlM_cons] at hrun
      obtain ⟨first, hstep, hrest⟩ := exists_of_bind hrun
      obtain ⟨transactions, -, rfl⟩ := exists_next hstep
      exact ih (h.next b transactions) hrest

theorem genuine_of_execute {s : Scenario} (hexecute : s.execute = .ok p) : p.Genuine := by
  obtain ⟨first, hstart, hfold⟩ := exists_of_bind hexecute
  obtain ⟨built, -, hfirst⟩ := exists_of_bind hstart
  obtain rfl := Except.ok.inj hfirst
  refine Genuine.foldlM (fun run hrun => ?_) hfold
  exact nomatch hrun

end ScenarioProgress

end LedgerExec
