import LedgerExec.Proofs.Block.Progress
set_option autoImplicit false

/-!
# A block without its rejected transactions

Executing a block leaves what executing its accepted transactions alone leaves.  The
two runs are compared step by step: `Mirrors p q` says that the second shows what the
first does, apart from the rejections and the cache of senders.  An accepted
transaction is a step of both runs, a rejected one a step of the first alone.

The caches differ between the runs, as a rejected transaction uses the cache and may
push a sender out of it.  Both stay sound, and that is all that matters.
-/

namespace LedgerExec

/-- The transactions of the block that were accepted, in the order in which they were run. -/
def BlockOutcome.accepted (o : BlockOutcome) : List Transaction :=
  o.runs.map (·.1.transaction)

namespace BlockProgress

variable {context : Context} {p q : BlockProgress} {t : Transaction}
  {transactions : List Transaction}

/-- The second run shows what the first one does and has rejected nothing, and both caches are
right about the transactions of the block. -/
structure Mirrors (transactions : List Transaction) (p q : BlockProgress) : Prop where
  view : q.view = p.view
  receipts : q.receipts = p.receipts
  destroyed : q.destroyed = p.destroyed
  gasUsed : q.gasUsed = p.gasUsed
  paidFees : q.paidFees = p.paidFees
  rejected : q.rejected = []
  sound : p.senders.Sound transactions
  sound_mirror : q.senders.Sound transactions

theorem Mirrors.job (h : Mirrors transactions p q) (context : Context) (t : Transaction) :
    q.job context t = p.job context t := by
  rw [BlockProgress.job, h.receipts, h.gasUsed, h.destroyed, BlockProgress.job]

/-- In both runs the next transaction is executed alike. -/
theorem Mirrors.next (h : Mirrors transactions p q) (context : Context) (ht : t ∈ transactions) :
    q.next context t = (p.next context t).withSenders (q.next context t).senders := by
  rw [BlockProgress.next, h.job, h.view]
  exact Job.execute_eq_of_sound rfl h.sound h.sound_mirror ht

/-- An accepted transaction is a step of both runs. -/
theorem Mirrors.accepted (hsenders : Unambiguous transactions) (h : Mirrors transactions p q)
    (ht : t ∈ transactions) (haccepted : (p.next context t).accepted = true) :
    Mirrors transactions (p.step context t) (q.step context t) := by
  have hnext := h.next context ht
  have hmirrored : (q.next context t).accepted = true := by
    rw [hnext]
    exact haccepted
  have hsound := sound_next hsenders h.sound context ht
  have hsoundMirror := sound_next hsenders h.sound_mirror context ht
  rw [step_of_accepted haccepted, step_of_accepted hmirrored, h.job context t]
  exact
    { view := by
        rw [hnext]
        rfl
      receipts := by
        rw [hnext, h.receipts]
        rfl
      destroyed := by
        rw [hnext, h.destroyed]
        rfl
      gasUsed := by
        rw [hnext, h.gasUsed]
        rfl
      paidFees := by
        rw [hnext, h.paidFees]
        rfl
      rejected := h.rejected
      sound := hsound
      sound_mirror := hsoundMirror }

/-- A rejected transaction is a step of the first run alone. -/
theorem Mirrors.rejected_left (hsenders : Unambiguous transactions)
    (h : Mirrors transactions p q) (ht : t ∈ transactions)
    (hrejected : (p.next context t).accepted = false) :
    Mirrors transactions (p.step context t) q := by
  rw [step_of_rejected hrejected]
  exact { h with sound := sound_next hsenders h.sound context ht }

/-- The run of the accepted transactions mirrors the run of all. -/
theorem mirrors_foldl (context : Context) (hsenders : Unambiguous transactions) (view : View)
    {senders : SenderCache} (hsound : senders.Sound transactions) :
    let p := transactions.foldl (step context) { view, senders }
    Mirrors transactions p
      ((p.runs.map (·.1.transaction)).foldl (step context) { view, senders }) := by
  have hstart : Mirrors transactions { view, senders } { view, senders } :=
    ⟨rfl, rfl, rfl, rfl, rfl, rfl, hsound, hsound⟩
  refine foldl_step_induction
    (P := fun _ p => Mirrors transactions p
      ((p.runs.map (·.1.transaction)).foldl (step context) { view, senders }))
    ?_ ?_ hstart
  · intro done p t ht h haccepted
    have hruns : (p.step context t).runs = p.runs ++ [(p.job context t, p.next context t)] := by
      rw [step_of_accepted haccepted]
    rw [hruns, List.map_append, List.foldl_append]
    exact h.accepted hsenders ht haccepted
  · intro done p t ht h hrejected
    have hruns : (p.step context t).runs = p.runs := by
      rw [step_of_rejected hrejected]
    rw [hruns]
    exact h.rejected_left hsenders ht hrejected

end BlockProgress

namespace BlockExecutor

/-- Executing the accepted transactions of a block alone leaves the same state and, but for the
rejections, the same result. -/
theorem execute_accepted_alone (x : BlockExecutor) (block : Block) (state : View)
    (hfresh : x.senders.entries = [])
    (hdistinct : ∀ s ∈ block.transactions, ∀ t ∈ block.transactions, s.hash = t.hash → s = t) :
    let whole := x.execute block state
    let alone := x.execute { block with transactions := whole.accepted } state
    Sorted block.transactions whole.runs whole.result.rejected ∧
      alone.view = whole.view ∧ alone.result = { whole.result with rejected := [] } := by
  intro whole alone
  have hsenders : Unambiguous block.transactions :=
    fun s hs t ht hhash => congrArg Transaction.sender (hdistinct s hs t ht hhash)
  have h := BlockProgress.mirrors_foldl (x.context block.header) hsenders state.push
    (SenderCache.sound_of_empty hfresh block.transactions)
  refine ⟨BlockProgress.sorted_foldl _ _ _ _, ?_, ?_⟩
  · exact congrArg (fun view => view.commit.pop) h.view
  · exact BlockResult.ext rfl h.receipts h.rejected h.gasUsed h.paidFees h.destroyed
      (congrArg receiptsRoot h.receipts)

theorem execute_sample_alone :
    let whole := sample.execute Block.sample View.sample
    let alone := sample.execute { Block.sample with transactions := whole.accepted } View.sample
    whole.result.rejected.length = 1 ∧ alone.view = whole.view ∧
      alone.result = { whole.result with rejected := [] } := by
  have hfacts :
      (sample.execute Block.sample View.sample).result.rejected.length = 1 ∧
        ∀ s ∈ Block.sample.transactions, ∀ t ∈ Block.sample.transactions,
          s.hash = t.hash → s = t := by
    decide +kernel
  obtain ⟨hrejected, hdistinct⟩ := hfacts
  obtain ⟨-, hview, hresult⟩ :=
    execute_accepted_alone sample Block.sample View.sample rfl hdistinct
  exact ⟨hrejected, hview, hresult⟩

end BlockExecutor

end LedgerExec
