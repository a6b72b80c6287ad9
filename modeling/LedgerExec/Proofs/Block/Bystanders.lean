import LedgerExec.Proofs.Block.Progress
import LedgerExec.Proofs.Execution.Bystanders
set_option autoImplicit false

/-!
# Who can lose by a block

With the passive interpreter a block takes nothing from an address that sends none of its
accepted transactions and is not created by one: the balance does not fall, and nonce and
code stay.  So do the words, unless there was no account and the address is that of a
built-in contract that the block calls, which then becomes an account with empty storage.

Each transaction of the block spares such an address (`Job.spares_execute`); the block
does by induction over its transactions.
-/

namespace LedgerExec

namespace BlockProgress

variable {context : Context} {a : Address}

/-- Nobody has acted for an address: it has sent no transaction that was run, and no run has created
it. -/
def Idle (a : Address) (runs : List (Job × Execution)) : Prop :=
  ∀ run ∈ runs, run.1.transaction.sender ≠ a ∧ ¬run.1.Creates run.2 a

/-- One of the runs has called the built-in contract at an address and ended without an error. -/
def Called (a : Address) (runs : List (Job × Execution)) : Prop :=
  ∃ run ∈ runs, run.2.error = none ∧ run.1.CallsBuiltIn a

/-- The transactions done so far have spared every address that nobody has acted for. -/
theorem spares_foldl (hpassive : context.interpreter = Interpreter.passive) (view : View)
    (senders : SenderCache) (transactions : List Transaction) :
    let p := transactions.foldl (step context) { view, senders }
    Idle a p.runs → view.Spares a (Called a p.runs) p.view := by
  refine foldl_step_induction
    (P := fun _ p => Idle a p.runs → view.Spares a (Called a p.runs) p.view) ?_ ?_ ?_
  · intro done p t _ ih haccepted hidle
    have hruns : (p.step context t).runs = p.runs ++ [(p.job context t, p.next context t)] := by
      rw [step_of_accepted haccepted]
    have hview : (p.step context t).view = (p.next context t).outer := by
      rw [step_of_accepted haccepted]
    rw [hruns] at hidle ⊢
    rw [hview]
    have hlast : (p.job context t, p.next context t) ∈
        p.runs ++ [(p.job context t, p.next context t)] :=
      List.mem_append_right _ (List.mem_singleton.mpr rfl)
    obtain ⟨hsender, hcreates⟩ := hidle _ hlast
    have hbefore := ih fun run hrun => hidle run (List.mem_append_left _ hrun)
    have hnext := Job.spares_execute rfl hpassive haccepted (Ne.symm hsender) hcreates
    have hall : view.Spares a (Called a (p.runs ++ [(p.job context t, p.next context t)]))
        p.view :=
      hbefore.mono fun ⟨run, hrun, hcalled⟩ => ⟨run, List.mem_append_left _ hrun, hcalled⟩
    exact hall.trans (hnext.mono fun hcalled => ⟨_, hlast, hcalled⟩)
  · intro done p t _ ih hrejected hidle
    have hsame : (p.step context t).runs = p.runs ∧ (p.step context t).view = p.view := by
      rw [step_of_rejected hrejected]
      exact ⟨rfl, rfl⟩
    rw [hsame.1] at hidle ⊢
    rw [hsame.2]
    exact ih hidle
  · intro _
    exact .refl view

end BlockProgress

namespace BlockExecutor

/-- Only signers can lose: what a block with the passive interpreter does to an address that sends
none of its accepted transactions and is not created by one. -/
theorem spares_bystanders (x : BlockExecutor) (block : Block) (state : View) {a : Address}
    (hpassive : x.interpreter = Interpreter.passive)
    (hsender : ∀ run ∈ (x.execute block state).runs, run.1.transaction.sender ≠ a)
    (hcreated : ∀ run ∈ (x.execute block state).runs, ¬run.1.Creates run.2 a) :
    let o := x.execute block state
    state.balance a ≤ o.view.balance a ∧ o.view.nonce a = state.nonce a ∧
      o.view.code? a = state.code? a ∧
      ∀ key, o.view.word a key = state.word a key ∨
        o.view.word a key = Octets.zero ∧ state.hasAccount a = false ∧
          ∃ run ∈ o.runs, run.2.error = none ∧ run.1.CallsBuiltIn a := by
  intro o
  have hinert : (x.context block.header).interpreter = Interpreter.passive := hpassive
  have hblock := BlockProgress.spares_foldl hinert state.push x.senders block.transactions
    fun run hrun => ⟨hsender run hrun, hcreated run hrun⟩
  have hspares : state.Spares a (BlockProgress.Called a o.runs) o.view :=
    (state.spares_push.trans hblock).trans (View.spares_pop_commit _)
  exact ⟨hspares.balance, hspares.nonce, hspares.code, hspares.word⟩

/-- An executor that runs no programs. -/
def inert : BlockExecutor where
  chain := ChainConfig.mainnet

/-- The receiver of a block is paid and keeps everything else. -/
theorem spares_bystanders_sample :
    View.sample.balance Address.sample <
        (inert.execute Block.sample View.sample).view.balance Address.sample ∧
      (inert.execute Block.sample View.sample).view.code? Address.sample = some [1] ∧
      ∀ key, (inert.execute Block.sample View.sample).view.word Address.sample key =
        View.sample.word Address.sample key := by
  have hfacts :
      (∀ run ∈ (inert.execute Block.sample View.sample).runs,
        run.1.transaction.sender ≠ Address.sample ∧ run.1.transaction.isCreation = false) ∧
        View.sample.balance Address.sample <
          (inert.execute Block.sample View.sample).view.balance Address.sample ∧
        View.sample.hasAccount Address.sample = true ∧
        View.sample.code? Address.sample = some [1] := by
    decide +kernel
  obtain ⟨hruns, hpaid, hthere, hcode⟩ := hfacts
  obtain ⟨-, -, hsame, hwords⟩ := spares_bystanders inert Block.sample View.sample rfl
    (fun run hrun => (hruns run hrun).1)
    fun run hrun => Job.not_creates_of_call (hruns run hrun).2
  refine ⟨hpaid, hsame.trans hcode, fun key => ?_⟩
  rcases hwords key with hkept | ⟨-, hmissing, -⟩
  · exact hkept
  · rw [hthere] at hmissing
    exact nomatch hmissing

/-- A state with a word at the address of a built-in contract that has no account yet. -/
def unclaimedWord : View :=
  View.sample.store BuiltIn.identityAddress (Octets.ofNat .word 1) (Octets.ofNat .word 7)

/-- A block that calls this contract. -/
def callingBlock : Block :=
  { Block.sample with
    transactions := [Transaction.sample { receiver := BuiltIn.identityAddress.toBytes }] }

/-- The first call of a built-in contract wipes what was stored at its address, although nobody has
sent anything from there and nothing was created. -/
theorem first_call_wipes_words :
    inert.interpreter = Interpreter.passive ∧
      (inert.execute callingBlock unclaimedWord).runs.length = 1 ∧
      (∀ run ∈ (inert.execute callingBlock unclaimedWord).runs,
        run.1.transaction.sender ≠ BuiltIn.identityAddress ∧
          ¬run.1.Creates run.2 BuiltIn.identityAddress) ∧
      (inert.execute callingBlock unclaimedWord).view.word BuiltIn.identityAddress
          (Octets.ofNat .word 1) ≠
        unclaimedWord.word BuiltIn.identityAddress (Octets.ofNat .word 1) := by
  have hfacts :
      (inert.execute callingBlock unclaimedWord).runs.length = 1 ∧
        (∀ run ∈ (inert.execute callingBlock unclaimedWord).runs,
          run.1.transaction.sender ≠ BuiltIn.identityAddress ∧
            run.1.transaction.isCreation = false) ∧
        (inert.execute callingBlock unclaimedWord).view.word BuiltIn.identityAddress
            (Octets.ofNat .word 1) ≠
          unclaimedWord.word BuiltIn.identityAddress (Octets.ofNat .word 1) := by
    decide +kernel
  obtain ⟨hone, hruns, hwiped⟩ := hfacts
  exact ⟨rfl, hone,
    fun run hrun => ⟨(hruns run hrun).1, Job.not_creates_of_call (hruns run hrun).2⟩, hwiped⟩

end BlockExecutor

end LedgerExec
