import Mathlib.Algebra.Ring.Nat
import LedgerExec.Proofs.Block.Progress
import LedgerExec.Proofs.Execution.Charged
import LedgerExec.Proofs.Execution.Invoked
import LedgerExec.Proofs.State.Reading
set_option autoImplicit false

/-!
# The books of a block

`BlockProgress.Coherent` is what holds between the runs of a block so far and the
books that are kept of them.  The step of an accepted transaction needs one bound:
validation reserves room for the whole gas limit, and no more than the limit is
charged, so the gas of the block is a sum that is never cut off.

`BlockOutcome.Coherent` says it of the outcome of a block, together with what the
receipt index answers afterwards.  It holds whatever the interpreter does to the state.
-/

namespace LedgerExec

/-- A run is the execution of an accepted transaction that saw its place in the block. -/
structure Executed (context : Context) (index : Nat) (run : Job × Execution) : Prop where
  context : run.1.context = context
  on_chain : run.1.isLocal = false
  index : run.1.index = index
  accepted : run.2.accepted = true
  execution : ∃ view senders, run.2 = run.1.execute view senders

/-- The receipt of a run. -/
def receiptOf (run : Job × Execution) : Receipt := run.1.receipt run.2

/-- The price of the gas that the receipt of a run names, however much it is. -/
def priceOf (run : Job × Execution) : Nat :=
  (receiptOf run).gasUsed.toNat * run.1.transaction.payload.gasPrice.toNat

/-- The gas that receipts name, however much it is. -/
def totalGas (receipts : List Receipt) : Nat := (receipts.map (·.gasUsed.toNat)).sum

/-- The price of the gas of all runs that have paid in advance, however much it is. -/
def totalPrice (runs : List (Job × Execution)) : Nat :=
  ((runs.filter (·.2.prepaid)).map priceOf).sum

theorem totalGas_concat (receipts : List Receipt) (receipt : Receipt) :
    totalGas (receipts ++ [receipt]) = totalGas receipts + receipt.gasUsed.toNat := by
  simp [totalGas]

theorem totalPrice_concat (runs : List (Job × Execution)) (run : Job × Execution) :
    totalPrice (runs ++ [run]) =
      totalPrice runs + if run.2.prepaid then priceOf run else 0 := by
  cases hprepaid : run.2.prepaid <;> simp [totalPrice, hprepaid]

/-- What holds at every place of a list and of an element after it holds at every place of both. -/
theorem forall_getElem?_concat {α : Type} {P : Nat → α → Prop} {l : List α} {y : α}
    (hold : ∀ i x, l[i]? = some x → P i x) (hnew : P l.length y) :
    ∀ i x, (l ++ [y])[i]? = some x → P i x := by
  intro i x hx
  rw [List.getElem?_append] at hx
  split at hx
  · exact hold i x hx
  · rename_i hlength
    rw [List.getElem?_singleton] at hx
    split at hx
    · rename_i hfirst
      have hplace : i = l.length := by omega
      rw [hplace, ← Option.some.inj hx]
      exact hnew
    · exact nomatch hx

namespace BlockProgress

variable {context : Context} {p : BlockProgress} {t : Transaction}

/-- What the books of a block say of its runs so far. -/
structure Coherent (context : Context) (p : BlockProgress) : Prop where
  executed : ∀ i run, p.runs[i]? = some run → Executed context i run
  receipts : p.receipts = p.runs.map receiptOf
  gas : p.gasUsed.toNat = totalGas p.receipts
  last : p.gasUsed = (p.receipts.getLast?.map (·.cumulativeGas)).getD 0
  within_limit : p.gasUsed ≤ Gas.cap context.block.gasLimit
  cumulative : ∀ i receipt, p.receipts[i]? = some receipt →
    receipt.cumulativeGas.toNat = totalGas (p.receipts.take (i + 1))
  fees : p.paidFees.toNat = min (totalPrice p.runs) ((1 <<< 128) - 1)

/-- Before the first transaction the books are empty. -/
theorem coherent_start (context : Context) (view : View) (senders : SenderCache) :
    Coherent context { view, senders } where
  executed _ _ hrun := nomatch hrun
  receipts := rfl
  gas := rfl
  last := rfl
  within_limit := Nat.zero_le _
  cumulative _ _ hreceipt := nomatch hreceipt
  fees := rfl

/-- The gas of an accepted transaction fits into the block as it stands. -/
theorem gas_of_accepted (haccepted : (p.next context t).accepted = true) :
    p.gasUsed.toNat + ((p.job context t).gasUsed (p.next context t)).toNat ≤
        (Gas.cap context.block.gasLimit).toNat ∧
      (Gas.add p.gasUsed ((p.job context t).gasUsed (p.next context t))).toNat =
        p.gasUsed.toNat + ((p.job context t).gasUsed (p.next context t)).toNat := by
  have hchecked : (p.job context t).checkGas = .ok () := Job.checkGas_of_accepted rfl haccepted
  have hcharged := (p.job context t).gasUsed_le (p.next context t)
  obtain ⟨hroom, hceiling, -⟩ := Job.checkGas_eq_ok_iff.mp hchecked
  simp only [job, Gas.toNat_ceiling] at hroom hceiling hcharged ⊢
  rw [Gas.toNat_add]
  exact ⟨by omega, by omega⟩

/-- What an accepted transaction pays is the price of its receipt, if it has paid in advance. -/
theorem fees_of_accepted (haccepted : (p.next context t).accepted = true) :
    (p.next context t).paidFees.toNat =
      min (if (p.next context t).prepaid then priceOf (p.job context t, p.next context t) else 0)
        ((1 <<< 128) - 1) := by
  have hfees : (p.next context t).paidFees = _ := Job.paidFees_execute rfl haccepted
  rw [hfees]
  change (if (p.next context t).prepaid then _ else _ : Balance).toNat = _
  split
  · exact Gas.toNat_price _ _
  · rfl

theorem Coherent.accepted (h : Coherent context p)
    (haccepted : (p.next context t).accepted = true) : Coherent context (p.step context t) := by
  obtain ⟨hroom, hsum⟩ := gas_of_accepted haccepted
  rw [step_of_accepted haccepted]
  exact
    { executed := forall_getElem?_concat h.executed
        { context := rfl
          on_chain := rfl
          index := by
            change p.receipts.length = _
            rw [h.receipts, List.length_map]
          accepted := haccepted
          execution := ⟨p.view, p.senders, rfl⟩ }
      receipts := by
        rw [h.receipts, List.map_append]
        rfl
      gas := by
        rw [totalGas_concat, ← h.gas]
        exact hsum
      last := by
        rw [List.getLast?_concat]
        rfl
      within_limit := by
        rw [Unsigned.le_iff, hsum]
        exact hroom
      cumulative := forall_getElem?_concat
        (fun i receipt hreceipt => by
          have hplace := (List.getElem?_eq_some_iff.mp hreceipt).1
          rw [List.take_append_of_le_length hplace]
          exact h.cumulative i receipt hreceipt)
        (by
          rw [List.take_of_length_le (by simp), totalGas_concat, ← h.gas]
          exact hsum)
      fees := by
        have hfees := fees_of_accepted haccepted
        rw [totalPrice_concat, Unsigned.toNat_addSat, hfees, h.fees]
        generalize (if (p.next context t).prepaid then _ else 0) = price
        omega }

theorem Coherent.rejected (h : Coherent context p)
    (hrejected : (p.next context t).accepted = false) : Coherent context (p.step context t) := by
  rw [step_of_rejected hrejected]
  exact { h with }

/-- The books are coherent after any transactions. -/
theorem coherent_foldl (context : Context) (view : View) (senders : SenderCache)
    (transactions : List Transaction) :
    Coherent context (transactions.foldl (step context) { view, senders }) :=
  foldl_step_induction (P := fun _ p => Coherent context p)
    (fun _ _ _ _ h => h.accepted) (fun _ _ _ _ h => h.rejected)
    (coherent_start context view senders)

end BlockProgress

/-- Of receipts of different transactions each is found with its place. -/
theorem BlockExecutor.get?_addReceipts {receipts : List Receipt}
    (hdistinct : (receipts.map (·.transaction)).Nodup) (index : ReceiptIndex) (block : Digest)
    {i : Nat} {receipt : Receipt} (hplace : receipts[i]? = some receipt) :
    (addReceipts index block receipts).get? receipt.transaction =
      some ⟨block, Unsigned.clamp 64 i, receipt⟩ := by
  have hmem : (receipt, i) ∈ receipts.zipIdx := List.mem_zipIdx_iff_getElem?.mpr hplace
  obtain ⟨before, after, hlist⟩ := List.append_of_mem hmem
  have hkeys : receipts.map (·.transaction) =
      (before ++ (receipt, i) :: after).map (·.1.transaction) := by
    have hreceipts := List.zipIdx_map_fst 0 receipts
    rw [← hlist, ← hreceipts, List.map_map, hreceipts]
    rfl
  rw [hkeys, List.map_append, List.map_cons, List.nodup_append, List.nodup_cons] at hdistinct
  obtain ⟨-, ⟨hafter, -⟩, hbefore⟩ := hdistinct
  have hmiss (r : ReceiptIndex) (other : Receipt × Nat)
      (hother : other.1.transaction ≠ receipt.transaction) :
      (r.add block other.2 other.1).get? receipt.transaction = r.get? receipt.transaction := by
    simp [ReceiptIndex.add, ReceiptIndex.get?, Std.ExtTreeMap.getElem?_insert, hother]
  rw [addReceipts, hlist]
  refine read_foldl_of_hit (·.get? receipt.transaction)
    (fun _ => some ⟨block, Unsigned.clamp 64 i, receipt⟩) ?_ ?_ ?_ index
  · intro r
    simp [ReceiptIndex.add, ReceiptIndex.get?]
  · intro r other hother
    refine hmiss r other fun hsame => ?_
    exact hbefore _ (List.mem_map_of_mem hother) _ List.mem_cons_self hsame
  · intro r other hother
    refine hmiss r other fun hsame => hafter ?_
    rw [← hsame]
    exact List.mem_map_of_mem hother

/-- What the outcome of a block says of the block. -/
structure BlockOutcome.Coherent (x : BlockExecutor) (block : Block) (o : BlockOutcome) :
    Prop where
  /-- every transaction is either run or rejected -/
  sorted : Sorted block.transactions o.runs o.result.rejected
  executed : ∀ i run, o.runs[i]? = some run → Executed (x.context block.header) i run
  /-- a program saw the place of its receipt -/
  invoked : ∀ i run program, o.runs[i]? = some run → run.2.program = some program →
    ∃ owner view,
      program.invocation = x.invocation run.1.transaction i owner block.header view
  receipts : o.result.receipts = o.runs.map receiptOf
  cumulative : ∀ i receipt, o.result.receipts[i]? = some receipt →
    receipt.cumulativeGas.toNat = totalGas (o.result.receipts.take (i + 1))
  gas : o.result.gasUsed = (o.result.receipts.getLast?.map (·.cumulativeGas)).getD 0
  within_limit : o.result.gasUsed ≤ Gas.cap block.header.gasLimit
  fees : o.result.paidFees.toNat = min (totalPrice o.runs) ((1 <<< 128) - 1)
  stored : (o.runs.map (·.1.transaction.hash)).Nodup →
    ∀ i receipt, o.result.receipts[i]? = some receipt →
      o.executor.receipts.get? receipt.transaction =
        some ⟨block.hash, Unsigned.clamp 64 i, receipt⟩

/-- The outcome of every block on every state. -/
theorem BlockExecutor.coherent_execute (x : BlockExecutor) (block : Block) (state : View) :
    (x.execute block state).Coherent x block := by
  have h := BlockProgress.coherent_foldl (x.context block.header) state.push x.senders
    block.transactions
  exact
    { sorted := BlockProgress.sorted_foldl _ _ _ _
      executed := h.executed
      invoked := fun i run program hrun hprogram => by
        have hexecuted := h.executed i run hrun
        obtain ⟨view, senders, hexecution⟩ := hexecuted.execution
        have haccepted := hexecuted.accepted
        rw [hexecution] at haccepted hprogram
        obtain ⟨owner, v, hinvocation⟩ :=
          Job.invocation_execute hexecuted.on_chain haccepted hprogram
        rw [hexecuted.context, hexecuted.index] at hinvocation
        exact ⟨owner, v, hinvocation⟩
      receipts := h.receipts
      cumulative := h.cumulative
      gas := h.last
      within_limit := h.within_limit
      fees := h.fees
      stored := fun hdistinct i receipt hplace => by
        refine get?_addReceipts ?_ x.receipts block.hash hplace
        rw [h.receipts, List.map_map]
        exact hdistinct }

theorem exists_eq_pair {α : Type} {l : List α} (hlength : l.length = 2) :
    ∃ first second, l = [first, second] := by
  match l, hlength with
  | [first, second], _ => exact ⟨first, second, rfl⟩

theorem BlockExecutor.coherent_sample :
    ∃ first second,
      (sample.execute Block.sample View.sample).result.receipts = [first, second] ∧
      second.cumulativeGas.toNat = first.gasUsed.toNat + second.gasUsed.toNat ∧
      (sample.execute Block.sample View.sample).executor.receipts.get? second.transaction =
        some ⟨Block.sample.hash, 1, second⟩ := by
  have hfacts :
      (sample.execute Block.sample View.sample).result.receipts.length = 2 ∧
        ((sample.execute Block.sample View.sample).runs.map (·.1.transaction.hash)).Nodup := by
    decide +kernel
  obtain ⟨hlength, hdistinct⟩ := hfacts
  have h := coherent_execute sample Block.sample View.sample
  obtain ⟨first, second, hreceipts⟩ := exists_eq_pair hlength
  have hcumulative := h.cumulative 1 second (by rw [hreceipts]; rfl)
  have hstored := h.stored hdistinct 1 second (by rw [hreceipts]; rfl)
  rw [hreceipts] at hcumulative
  refine ⟨first, second, hreceipts, ?_, hstored⟩
  simpa [totalGas] using hcumulative

end LedgerExec
