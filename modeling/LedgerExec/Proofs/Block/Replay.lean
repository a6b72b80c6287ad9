import LedgerExec.Proofs.Block.Progress
import LedgerExec.Proofs.Execution.Counted
set_option autoImplicit false

/-!
# Replays

An accepted transaction leaves the nonce of its sender one above its own, up to the
greatest nonce.  With the passive interpreter no nonce falls, so the same transaction
meets a greater nonce ever after and is not accepted again, in its block or a later one.

At the greatest nonce there is nothing above.  A transaction with that nonce leaves the
nonce as it was, and it is accepted as often as it can be paid for: `replayingBlock`
holds one twice.
-/

namespace LedgerExec

theorem le_addSat_one (n : Nonce) : n ≤ Unsigned.addSat n 1 := by
  have hlt := n.isLt
  rw [Unsigned.le_iff, Unsigned.toNat_addSat]
  omega

/-- Counting stops at the greatest nonce and nowhere else. -/
theorem addSat_one_le_iff {n : Nonce} : Unsigned.addSat n 1 ≤ n ↔ n = Unsigned.greatest 64 := by
  have hlt := n.isLt
  have hone : (1 : Nonce).toNat = 1 := rfl
  rw [Unsigned.le_iff, ← Unsigned.toNat_inj, Unsigned.toNat_addSat, Unsigned.toNat_greatest]
  omega

/-- No run creates a contract at the address of a sender. -/
def Separate (runs : List (Job × Execution)) : Prop :=
  ∀ r ∈ runs, ∀ s ∈ runs, ¬r.1.Creates r.2 s.1.transaction.sender

theorem Separate.left {before after : List (Job × Execution)} (h : Separate (before ++ after)) :
    Separate before :=
  fun r hr s hs => h r (List.mem_append_left after hr) s (List.mem_append_left after hs)

/-- How the nonces of a state stand after some runs. -/
structure Guarded (runs : List (Job × Execution)) (view : View) : Prop where
  /-- every run has counted its transaction -/
  counted : ∀ run ∈ runs, run.2.outer.nonce run.1.transaction.sender =
    Unsigned.addSat run.1.transaction.payload.nonce 1
  /-- no nonce has fallen since -/
  raised : ∀ run ∈ runs, Unsigned.addSat run.1.transaction.payload.nonce 1 ≤
    view.nonce run.1.transaction.sender
  once : runs.Pairwise fun r s => r.1.transaction = s.1.transaction →
    r.1.transaction.payload.nonce = Unsigned.greatest 64

theorem guarded_nil (view : View) : Guarded [] view where
  counted _ hrun := nomatch hrun
  raised _ hrun := nomatch hrun
  once := .nil

/-- Nothing but the nonces of the state matters. -/
theorem Guarded.congr {runs : List (Job × Execution)} {v w : View} (h : Guarded runs v)
    (hsame : ∀ a, w.nonce a = v.nonce a) : Guarded runs w :=
  { h with
    raised := fun run hrun => by
      rw [hsame]
      exact h.raised run hrun }

namespace BlockProgress

variable {context : Context} {p : BlockProgress} {t : Transaction}
  {transactions : List Transaction} {before : List (Job × Execution)}

/-- The nonce of an accepted transaction is that of its sender. -/
theorem nonce_of_next (hsound : p.senders.Sound transactions) (ht : t ∈ transactions)
    (haccepted : (p.next context t).accepted = true) :
    p.view.nonce t.sender = t.payload.nonce := by
  have hnonce := Job.nonce_of_accepted (j := p.job context t) rfl haccepted
  change p.view.nonce (p.senders.sender t).1 = t.payload.nonce at hnonce
  rwa [hsound.sender ht] at hnonce

/-- One more run guards its own nonce and lets no other fall. -/
theorem guarded_next (hpassive : context.interpreter = Interpreter.passive)
    (hsound : p.senders.Sound transactions) (ht : t ∈ transactions)
    (haccepted : (p.next context t).accepted = true) (h : Guarded before p.view)
    (hseparate : Separate (before ++ [(p.job context t, p.next context t)])) :
    Guarded (before ++ [(p.job context t, p.next context t)]) (p.next context t).outer := by
  have hnonce := nonce_of_next hsound ht haccepted
  have hafter : ∀ run ∈ before ++ [(p.job context t, p.next context t)],
      (p.next context t).outer.nonce run.1.transaction.sender =
        if run.1.transaction.sender = t.sender then Unsigned.addSat t.payload.nonce 1
        else p.view.nonce run.1.transaction.sender := by
    intro run hrun
    rw [← hnonce]
    exact Job.nonce_execute rfl hpassive haccepted
      (hseparate _ (List.mem_append_right before List.mem_cons_self) run hrun)
  have hnext : (p.next context t).outer.nonce t.sender = Unsigned.addSat t.payload.nonce 1 :=
    (hafter _ (List.mem_append_right before List.mem_cons_self)).trans (if_pos rfl)
  exact
    { counted := List.forall_mem_append.mpr ⟨h.counted, List.forall_mem_singleton.mpr hnext⟩
      raised := by
        refine List.forall_mem_append.mpr ⟨fun run hold => ?_, List.forall_mem_singleton.mpr ?_⟩
        · have hraised := h.raised run hold
          rw [hafter run (List.mem_append_left _ hold)]
          split
          · rename_i hsame
            rw [hsame, hnonce] at hraised
            exact Nat.le_trans hraised (le_addSat_one _)
          · exact hraised
        · exact Unsigned.le_iff.mpr (Nat.le_of_eq (congrArg _ hnext.symm))
      once := by
        refine List.pairwise_append.mpr ⟨h.once, List.pairwise_singleton _ _, ?_⟩
        refine fun run hold => List.forall_mem_singleton.mpr fun hsame => ?_
        change run.1.transaction = t at hsame
        -- the transaction was accepted again, so counting it has not raised the nonce
        have hraised := h.raised run hold
        rw [hsame, hnonce] at hraised
        rw [hsame]
        exact addSat_one_le_iff.mp hraised }

/-- The runs of a block guard their nonces together with those before the block. -/
theorem guarded_foldl (context : Context) (hpassive : context.interpreter = Interpreter.passive)
    (hsenders : Unambiguous transactions) {block : List Transaction}
    (hblock : ∀ t ∈ block, t ∈ transactions) {view : View} {senders : SenderCache}
    (hsound : senders.Sound transactions) (hstart : Separate before → Guarded before view) :
    let p := block.foldl (step context) { view, senders }
    p.senders.Sound transactions ∧
      (Separate (before ++ p.runs) → Guarded (before ++ p.runs) p.view) := by
  -- what creations keep away from is known of all runs together, so each step asks for it anew
  refine foldl_step_induction
    (P := fun _ p => p.senders.Sound transactions ∧
      (Separate (before ++ p.runs) → Guarded (before ++ p.runs) p.view)) ?_ ?_ ⟨hsound, ?_⟩
  · intro done p t ht ⟨hsound, hguarded⟩ haccepted
    have hnext := sound_next hsenders hsound context (hblock t ht)
    rw [step_of_accepted haccepted]
    refine ⟨hnext, fun hseparate => ?_⟩
    rw [← List.append_assoc] at hseparate ⊢
    exact guarded_next hpassive hsound (hblock t ht) haccepted (hguarded hseparate.left)
      hseparate
  · intro done p t ht ⟨hsound, hguarded⟩ hrejected
    rw [step_of_rejected hrejected]
    exact ⟨sound_next hsenders hsound context (hblock t ht), hguarded⟩
  · rw [List.append_nil]
    exact hstart

end BlockProgress

namespace BlockExecutor

/-- Executes blocks one after the other, each on what the one before has left. -/
def executeAll (x : BlockExecutor) (state : View) : List Block → List BlockOutcome
  | [] => []
  | block :: rest =>
    let o := x.execute block state
    o :: o.executor.executeAll o.view rest

/-- Every accepted transaction of the blocks, each as it was executed. -/
def allRuns (x : BlockExecutor) (state : View) (blocks : List Block) : List (Job × Execution) :=
  (x.executeAll state blocks).flatMap (·.runs)

theorem guarded_executeAll {x : BlockExecutor} {state : View} {blocks : List Block}
    {transactions : List Transaction} (before : List (Job × Execution))
    (hpassive : x.interpreter = Interpreter.passive) (hsound : x.senders.Sound transactions)
    (hsenders : Unambiguous transactions)
    (hblocks : ∀ block ∈ blocks, ∀ t ∈ block.transactions, t ∈ transactions)
    (hstart : Separate before → Guarded before state)
    (hseparate : Separate (before ++ x.allRuns state blocks)) :
    ∃ view, Guarded (before ++ x.allRuns state blocks) view := by
  induction blocks generalizing x state before with
  | nil =>
      have hnone : before ++ x.allRuns state [] = before := List.append_nil before
      rw [hnone] at hseparate ⊢
      exact ⟨state, hstart hseparate⟩
  | cons block rest ih =>
      obtain ⟨hkept, hguarded⟩ := BlockProgress.guarded_foldl (x.context block.header) hpassive
        hsenders (hblocks block List.mem_cons_self) hsound
        (fun h => (hstart h).congr fun a => state.nonce_push a)
      have hruns : before ++ x.allRuns state (block :: rest) =
          before ++ (x.execute block state).runs ++
            (x.execute block state).executor.allRuns (x.execute block state).view rest := by
        rw [List.append_assoc]
        rfl
      rw [hruns] at hseparate ⊢
      refine ih (x := (x.execute block state).executor) _ hpassive hkept
        (fun b hb => hblocks b (List.mem_cons_of_mem block hb)) (fun h => ?_) hseparate
      exact (hguarded h).congr fun a => View.nonce_pop_commit _ a

/-- With the passive interpreter an acceptance leaves a greater nonce exactly if there is one, and
no transaction below the greatest nonce is accepted twice. -/
theorem accepted_once {x : BlockExecutor} {state : View} {blocks : List Block}
    (hpassive : x.interpreter = Interpreter.passive)
    (hsound : x.senders.Sound (blocks.flatMap (·.transactions)))
    (hsenders : Unambiguous (blocks.flatMap (·.transactions)))
    (hseparate : Separate (x.allRuns state blocks)) :
    (∀ run ∈ x.allRuns state blocks,
        run.1.transaction.payload.nonce < run.2.outer.nonce run.1.transaction.sender ↔
          run.1.transaction.payload.nonce ≠ Unsigned.greatest 64) ∧
      (((x.allRuns state blocks).map (·.1.transaction)).filter
        (·.payload.nonce ≠ Unsigned.greatest 64)).Nodup := by
  have hblocks : ∀ block ∈ blocks, ∀ t ∈ block.transactions,
      t ∈ blocks.flatMap (·.transactions) :=
    fun block hblock t ht => List.mem_flatMap.mpr ⟨block, hblock, ht⟩
  obtain ⟨view, hguarded⟩ := guarded_executeAll [] hpassive hsound hsenders hblocks
    (fun _ => guarded_nil state) hseparate
  constructor
  · intro run hrun
    rw [hguarded.counted run hrun]
    exact Nat.not_le.symm.trans (not_congr addSat_one_le_iff)
  · rw [List.Nodup, List.pairwise_filter, List.pairwise_map]
    refine hguarded.once.imp fun honce hbelow _ hsame => ?_
    exact of_decide_eq_true hbelow (honce hsame)

/-- An executor of the main chain, with the passive interpreter. -/
def plain : BlockExecutor := { chain := ChainConfig.mainnet }

theorem accepted_once_sample :
    (plain.allRuns View.sample [Block.sample, Block.sample]).length = 2 ∧
      (((plain.allRuns View.sample [Block.sample, Block.sample]).map (·.1.transaction)).filter
        (·.payload.nonce ≠ Unsigned.greatest 64)).Nodup := by
  have hfacts :
      (plain.allRuns View.sample [Block.sample, Block.sample]).length = 2 ∧
        (∀ run ∈ plain.allRuns View.sample [Block.sample, Block.sample],
          run.1.transaction.isCreation = false) ∧
        ∀ t ∈ [Block.sample, Block.sample].flatMap (·.transactions),
          t.sender = Envelope.neutral.signer := by
    decide +kernel
  obtain ⟨hlength, hcalls, hsender⟩ := hfacts
  refine ⟨hlength, (accepted_once rfl (SenderCache.sound_of_empty rfl _) ?_ ?_).2⟩
  · exact fun s hs t ht _ => (hsender s hs).trans (hsender t ht).symm
  · intro r hr s hs hcreates
    have hcall := hcalls r hr
    rw [hcreates.1] at hcall
    exact nomatch hcall

/-- A transaction with the greatest nonce. -/
def lastTransaction : Transaction :=
  Transaction.sample
    { nonce := Unsigned.greatest 64, receiver := Address.sample.toBytes, value := 1 }

/-- A block that holds the same transaction twice. -/
def replayingBlock : Block :=
  { Block.sample with transactions := [lastTransaction, lastTransaction] }

/-- A state in which the neutral key has come to the greatest nonce. -/
def exhaustedState : View :=
  View.root.put Envelope.neutral.signer { nonce := Unsigned.greatest 64, balance := 1000000 }

/-- Of a transaction with the greatest nonce both copies are accepted, and neither is counted. -/
theorem accepted_twice_at_greatest :
    (plain.allRuns exhaustedState [replayingBlock]).map (·.1.transaction) =
        [lastTransaction, lastTransaction] ∧
      (∀ run ∈ plain.allRuns exhaustedState [replayingBlock],
        run.1.transaction.isCreation = false ∧
          ¬run.1.transaction.payload.nonce < run.2.outer.nonce run.1.transaction.sender) ∧
      ¬((plain.allRuns exhaustedState [replayingBlock]).map (·.1.transaction)).Nodup := by
  decide +kernel

end BlockExecutor

end LedgerExec
