import LedgerExec.Proofs.Calls.Succeeding
import LedgerExec.Proofs.Execution.Solvency
import LedgerExec.Proofs.State.Effects
set_option autoImplicit false

/-!
# Estimates of gas

A local call and the signed transaction that asks for the same see different balances: the
one is not validated, raises no nonce and pays nothing, the other has its price taken first.
Neither shows in what is used and returned, so a call that succeeds predicts both exactly
(`CallRequest.estimateGas_exact`).

Of the state the run reads the code of the receiver, which the payment leaves alone, and
whether the value is there.  A contract that a creation would put in the place of its own
sender is not funded in either run.  The contracts of the protocol do not look at the
transaction that calls them.

That is so only if the program of the transaction gets its gas.  An invocation may have a
smaller limit than its transaction, and a maker that is more generous to the call than to
the transaction lets the one through and stops the other (`Job.GrantsLike`,
`estimateGas_falls_short`).
-/

namespace LedgerExec

/-! ## Contracts that do not look at the caller -/

/-- Neither what is asked for nor the answer depends on the transaction that asks. -/
structure BuiltIn.Impartial (contract : BuiltIn) : Prop where
  answer (env : BuiltInEnv) (t : Transaction) (data : Bytes) :
    contract.answer (some { env with transaction := t }) data = contract.answer (some env) data
  requiredGas (env : BuiltInEnv) (t : Transaction) (data : Bytes) :
    contract.requiredGasIn { env with transaction := t } data = contract.requiredGasIn env data

namespace Job

variable {j k : Job} {outer paid v w : View} {d : Dispatch} {e : Execution}

/-! ## Jobs that ask for the same -/

/-- Two jobs ask for the same in the same context: their transactions differ in authority, gas and
price at most. -/
structure AsksLike (j k : Job) : Prop where
  context : j.context = k.context
  sender : j.transaction.sender = k.transaction.sender
  receiver : j.transaction.receiver? = k.transaction.receiver?
  nonce : j.transaction.payload.nonce = k.transaction.payload.nonce
  value : j.transaction.payload.value = k.transaction.payload.value
  data : j.transaction.payload.data = k.transaction.payload.data

/-- The programs of the first job get as much gas as its transaction has, or as much as those of the
second.  Limits that are all the same will do. -/
def GrantsLike (j k : Job) : Prop :=
  ∀ owner state, j.transaction.payload.gasLimit ≤ j.grant owner state ∨
    ∀ owner' state', k.grant owner' state' ≤ j.grant owner state

namespace AsksLike

theorem isCreation (h : j.AsksLike k) :
    j.transaction.isCreation = k.transaction.isCreation := by
  rw [Bool.eq_iff_iff, ← receiver?_eq_none_iff, ← receiver?_eq_none_iff, h.receiver]

theorem newAddress (h : j.AsksLike k) : j.newAddress = k.newAddress := by
  rw [Job.newAddress, h.sender, h.nonce, Job.newAddress]

theorem target (h : j.AsksLike k) : j.target = k.target := by
  rw [Job.target, h.receiver, h.newAddress, Job.target]

theorem basicCost (h : j.AsksLike k) : j.basicCost = k.basicCost := by
  have hfree (policy : SetupPolicy) (active : ActiveUpgrades) :
      policy.isFree j.transaction active = policy.isFree k.transaction active := by
    simp only [SetupPolicy.isFree, h.sender, h.receiver]
  have hcost (free : Bool) :
      j.transaction.intrinsicCost free = k.transaction.intrinsicCost free := by
    simp only [Transaction.intrinsicCost, Transaction.dataBytes, h.data, h.isCreation]
  simp only [Job.basicCost, ChainConfig.intrinsicCost, h.context, hfree, hcost]

/-- Contracts are shown the same but for the transaction. -/
theorem environment (h : j.AsksLike k) :
    j.environment = { k.environment with transaction := j.transaction } := by
  simp only [Job.environment, h.context]

theorem charge (h : j.AsksLike k) {contract : BuiltIn} (himpartial : contract.Impartial) :
    j.charge contract = k.charge contract := by
  rw [Job.charge, required, h.environment, himpartial.requiredGas, h.data, h.basicCost, Job.charge,
    required]

/-- Impartial contracts ask for the same. -/
theorem fare (h : j.AsksLike k)
    (himpartial : ∀ address contract, d = .builtIn address contract → contract.Impartial) :
    j.fare d = k.fare d := by
  cases d with
  | builtIn address contract => exact h.charge (himpartial address contract rfl)
  | creation | program | plain => exact h.basicCost

theorem invokes_iff (h : j.AsksLike k) (d : Dispatch) : j.Invokes d ↔ k.Invokes d := by
  cases d with
  | creation => simp only [Invokes, h.data]
  | builtIn | program | plain => exact Iff.rfl

/-- What is asked for depends on the state through code alone. -/
theorem dispatch (h : j.AsksLike k) (hcode : ∀ a, v.code? a = w.code? a) :
    j.dispatch v = k.dispatch w := by
  simp only [Job.dispatch, hcode, h.context, h.sender, h.receiver, h.nonce]

theorem answerOf (h : j.AsksLike k) {contract : BuiltIn} (himpartial : contract.Impartial) :
    j.answerOf contract = k.answerOf contract := by
  rw [Job.answerOf, h.environment, himpartial.answer, h.data, Job.answerOf]

/-- The answers of impartial contracts are the same. -/
theorem reply (h : j.AsksLike k)
    (himpartial : ∀ address contract, d = .builtIn address contract → contract.Impartial) :
    j.reply d = k.reply d := by
  cases d with
  | builtIn address contract => simp only [Job.reply, h.answerOf (himpartial address contract rfl)]
  | creation | program | plain => rfl

/-- If the one is answered, so is the other, as long as its limit covers the charge. -/
theorem answers (h : j.AsksLike k)
    (himpartial : ∀ address contract, d = .builtIn address contract → contract.Impartial)
    (hcovered : j.fare d ≤ j.transaction.gasLimit) (hanswers : k.Answers d) : j.Answers d := by
  cases d with
  | builtIn address contract =>
      obtain ⟨⟨output, hanswer⟩, -⟩ := hanswers
      obtain ⟨left, -, hsub⟩ := GasRules.exists_sub_eq_ok hcovered
      exact ⟨⟨output, (h.answerOf (himpartial address contract rfl)).trans hanswer⟩, left,
        hsub j.context.gasRules⟩
  | creation | program | plain => trivial

/-- If the value can be sent in the one run, it can in the other, as long as the sender has it. -/
theorem exists_transfer (h : j.AsksLike k) (hsupported : k.Supported v)
    (hfunds : j.transaction.payload.value.toNat ≤ (paid.balance j.transaction.sender).toNat) :
    ∃ w, (j.cleared paid).transfer j.transaction.sender j.target j.transaction.payload.value =
      .ok w := by
  refine View.exists_transfer ?_ j.target
  cases hcreates : j.transaction.isCreation with
  | false =>
      rw [cleared_of_call hcreates]
      exact hfunds
  | true =>
      rw [cleared_of_creation hcreates, View.balance_create]
      split
      · -- the sender itself is cleared, so nothing but zero can have been sent
        rename_i hself
        obtain ⟨w, htransfer⟩ := hsupported.funds
        obtain ⟨u, hdebit, -⟩ := View.transfer_eq_ok_iff.mp htransfer
        have htaken := View.balance_debit hdebit k.transaction.sender
        rw [cleared_of_creation (h.isCreation.symm.trans hcreates), View.balance_create, ← h.sender,
          ← h.newAddress, if_pos hself, if_pos rfl, ← h.value] at htaken
        omega
      · exact hfunds

/-- If a program can pay the intrinsic cost in the one run, all can in the other. -/
theorem granted (h : j.AsksLike k) (hgrants : j.GrantsLike k)
    (hsupported : k.Supported v) (hdispatch : j.dispatch paid = k.dispatch v)
    (hcost : j.basicCost ≤ j.transaction.gasLimit) (hinvokes : j.Invokes (j.dispatch paid))
    (owner : Address) (state : View) : j.basicCost ≤ j.grant owner state := by
  rw [hdispatch, h.invokes_iff] at hinvokes
  obtain ⟨owner', state', hgranted⟩ := hsupported.granted hinvokes
  rw [← h.basicCost] at hgranted
  rcases hgrants owner state with hall | hmost
  · have hcut : j.transaction.gasLimit ≤ j.transaction.payload.gasLimit := by
      rw [Unsigned.le_iff, Transaction.toNat_gasLimit]
      omega
    exact Nat.le_trans hcost (Nat.le_trans hcut hall)
  · exact Nat.le_trans hgranted (hmost owner' state')

end AsksLike

/-! ## Paying and settling -/

/-- Taking the price leaves all code alone, and the value if the sender has both. -/
theorem exists_paid
    (hsolvent : j.transaction.payload.value.toNat + j.exactPrepayment ≤
      (outer.balance j.transaction.sender).toNat) :
    ∃ paid,
      (outer.raiseNonce j.transaction.sender).debit j.transaction.sender j.prepayment = .ok paid ∧
        (∀ a, paid.code? a = outer.code? a) ∧
        j.transaction.payload.value.toNat ≤ (paid.balance j.transaction.sender).toNat := by
  obtain ⟨hexact, paid, hdebit⟩ := debit_of_solvent hsolvent
  have hprepaid := (Effect.shows_raiseNonce outer j.transaction.sender).trans
    (Effect.shows_debit hdebit)
  refine ⟨paid, hdebit, hprepaid.code?, ?_⟩
  have htaken := View.balance_debit hdebit j.transaction.sender
  rw [if_pos rfl, View.balance_raiseNonce] at htaken
  omega

end Job

/-! ## The estimate -/

namespace CallRequest

/-- The call tries what the transaction asks for: it has the same sender, receiver, value, price and
data.  The transaction has no rent gas. -/
structure Tries (r : CallRequest) (t : Transaction) : Prop where
  sender : t.sender = r.sender
  receiver : t.receiver? = r.receiver
  value : t.payload.value = r.value
  gasPrice : t.payload.gasPrice = r.gasPrice
  data : t.payload.data = r.data
  rent : t.payload.rentGasLimit = 0

variable {r : CallRequest} {j : Job} {state : View} {senders : SenderCache}

/-- A call without a rent limit is prepaid by the price of its gas limit. -/
theorem Tries.exactPrepayment (h : r.Tries j.transaction) :
    j.exactPrepayment = j.transaction.gasLimit.toNat * j.transaction.payload.gasPrice.toNat := by
  have hrent : j.transaction.rentGasLimit.toNat = 0 := by
    rw [Transaction.toNat_rentGasLimit, h.rent, Unsigned.toNat_zero]
    rfl
  rw [Job.exactPrepayment, hrent, Nat.add_zero]

end CallRequest

end LedgerExec
