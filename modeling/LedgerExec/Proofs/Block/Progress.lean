import LedgerExec.BlockExecution
import LedgerExec.Proofs.Execution.Senders
set_option autoImplicit false

/-!
# A block transaction by transaction

What the next transaction adds to the progress of a block, by whether it is accepted,
and the induction over the transactions that later modules go by: a property of the
transactions done so far and the progress that every step keeps holds of the whole
block.

`Sorted` says how the transactions of a block are divided: each adds one entry to the
end of one of the two lists, so both are in the order of the block.
-/

namespace LedgerExec

/-- Every transaction is either run or rejected, and both lists are in the order of the
transactions. -/
inductive Sorted :
    List Transaction → List (Job × Execution) → List RejectedTransaction → Prop
  | nil : Sorted [] [] []
  | accepted {transactions : List Transaction} {runs : List (Job × Execution)}
      {rejected : List RejectedTransaction} (before : Sorted transactions runs rejected)
      (run : Job × Execution) (accepted : run.2.accepted = true) :
      Sorted (transactions ++ [run.1.transaction]) (runs ++ [run]) rejected
  | rejected {transactions : List Transaction} {runs : List (Job × Execution)}
      {rejected : List RejectedTransaction} (before : Sorted transactions runs rejected)
      (t : Transaction) (reason : String) :
      Sorted (transactions ++ [t]) runs (rejected ++ [⟨t.hash, reason⟩])

namespace BlockProgress

variable {context : Context} {p : BlockProgress} {t : Transaction}

/-- The execution of the next transaction. -/
def next (context : Context) (p : BlockProgress) (t : Transaction) : Execution :=
  (p.job context t).execute p.view p.senders

/-- An accepted transaction is included. -/
theorem step_of_accepted (haccepted : (p.next context t).accepted = true) :
    p.step context t =
      { view := (p.next context t).outer
        senders := (p.next context t).senders
        receipts := p.receipts ++ [(p.job context t).receipt (p.next context t)]
        rejected := p.rejected
        destroyed := p.destroyed.insertMany (p.next context t).result.destroyed.toList
        gasUsed := Gas.add p.gasUsed ((p.job context t).gasUsed (p.next context t))
        paidFees := Unsigned.addSat p.paidFees (p.next context t).paidFees
        runs := p.runs ++ [(p.job context t, p.next context t)] } :=
  if_pos haccepted

/-- A rejected transaction leaves its reason, and the cache as it has used it. -/
theorem step_of_rejected (hrejected : (p.next context t).accepted = false) :
    p.step context t =
      { p with
        senders := (p.next context t).senders
        rejected := p.rejected ++ [⟨t.hash, (p.next context t).errorText⟩] } :=
  if_neg (by rw [← next, hrejected]; exact Bool.false_ne_true)

/-- A cache that is right about some transactions stays so when one of them is next. -/
theorem sound_next {transactions : List Transaction} (hsenders : Unambiguous transactions)
    (hsound : p.senders.Sound transactions) (context : Context) (ht : t ∈ transactions) :
    (p.next context t).senders.Sound transactions :=
  Job.sound_execute rfl hsenders hsound ht

/-- What every step keeps holds after all transactions. -/
theorem foldl_step_induction {P : List Transaction → BlockProgress → Prop}
    {transactions : List Transaction}
    (haccepted : ∀ done p, ∀ t ∈ transactions, P done p → (p.next context t).accepted = true →
      P (done ++ [t]) (p.step context t))
    (hrejected : ∀ done p, ∀ t ∈ transactions, P done p → (p.next context t).accepted = false →
      P (done ++ [t]) (p.step context t))
    (hstart : P [] p) : P transactions (transactions.foldl (step context) p) := by
  have hrun (rest done : List Transaction) (p : BlockProgress)
      (hrest : ∀ t ∈ rest, t ∈ transactions) (hp : P done p) :
      P (done ++ rest) (rest.foldl (step context) p) := by
    induction rest generalizing done p with
    | nil =>
        rw [List.append_nil]
        exact hp
    | cons t rest ih =>
        have ht := hrest t List.mem_cons_self
        have hstep : P (done ++ [t]) (p.step context t) := by
          cases hverdict : (p.next context t).accepted with
          | true => exact haccepted done p t ht hp hverdict
          | false => exact hrejected done p t ht hp hverdict
        have hall := ih (done ++ [t]) (p.step context t)
          (fun s hs => hrest s (List.mem_cons_of_mem t hs)) hstep
        rw [List.append_assoc] at hall
        exact hall
  exact hrun transactions [] p (fun _ ht => ht) hstart

/-- The transactions of a block are divided into its runs and its rejections. -/
theorem sorted_foldl (context : Context) (view : View) (senders : SenderCache)
    (transactions : List Transaction) :
    let p := transactions.foldl (step context) { view, senders }
    Sorted transactions p.runs p.rejected := by
  refine foldl_step_induction (P := fun done p => Sorted done p.runs p.rejected) ?_ ?_ .nil
  · intro done p t _ h haccepted
    rw [step_of_accepted haccepted]
    exact h.accepted (p.job context t, p.next context t) haccepted
  · intro done p t _ h hrejected
    rw [step_of_rejected hrejected]
    exact h.rejected t _

end BlockProgress

/-! ## A block to try -/

/-- A transaction of the neutral key with enough gas for a call. -/
def Transaction.sample (payload : Payload) : Transaction :=
  ⟨{ payload with gasPrice := 1, gasLimit := 50000 }, .signed Envelope.neutral⟩

/-- An executor whose interpreter knows one program, which destroys its contract. -/
def BlockExecutor.sample : BlockExecutor where
  chain := ChainConfig.mainnet
  interpreter := Interpreter.scripted [([1], [.act { name := "DESTROY" } .markDestroyed])]

/-- A block of which the second transaction is rejected for its nonce. -/
def Block.sample : Block where
  header :=
    { number := 1
      parentHash := Octets.zero
      coinbase := Octets.ofNat .address 9
      timestamp := 0
      gasLimit := 1000000 }
  transactions :=
    [ Transaction.sample { receiver := Address.sample.toBytes, value := 8 },
      Transaction.sample { nonce := 5, receiver := Address.sample.toBytes },
      Transaction.sample { nonce := 1, receiver := Address.sample.toBytes, value := 3 } ]

end LedgerExec
