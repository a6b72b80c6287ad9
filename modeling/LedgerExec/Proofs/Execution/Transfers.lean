import LedgerExec.Proofs.Execution.Conservation
import LedgerExec.Proofs.Execution.GasAccount
import LedgerExec.Proofs.Execution.Performed
import LedgerExec.Proofs.Execution.Validity
import LedgerExec.Proofs.State.Effects
set_option autoImplicit false

/-!
# Plain transfers

An accepted transaction that asks for a plain transfer always succeeds: its sender can
pay for both limits and for the value, there is no program, and the gas charged is the
intrinsic cost.  Everything that it writes depends on the transaction alone, so it has one
effect on every state (`plain_execute`).

Effects add up in either order, and a transfer of one sender takes nothing from another.
So two transfers of different senders commute, whoever receives them and the fees
(`transfers_commute`).
-/

namespace LedgerExec

namespace Job

variable {j k : Job} {outer paid v : View} {senders : SenderCache} {receiver : Address}

/-! ## What a transfer comes to -/

/-- The gas that is left of the limit. -/
def plainGasLeft (j : Job) : Gas := Unsigned.subSat j.transaction.gasLimit j.basicCost

/-- The result of a run that has spent the intrinsic cost. -/
def plainResult (j : Job) : RunResult := RunResult.spend {} j.basicCost

/-- The balance sheet of a plain transfer. -/
def plainSettlement (j : Job) : Settlement :=
  j.settlement (creditDestroyed j.plainResult) j.plainGasLeft

/-- What a plain transfer does to a state. -/
def plainEffect (j : Job) (receiver : Address) : Effect :=
  let sender := j.transaction.sender
  let value := j.transaction.payload.value.toNat
  let s := j.plainSettlement
  .single sender 1 0 0 + .single sender 0 j.prepayment.toNat 0 +
    (.single sender 0 value 0 + .single receiver 0 0 value) +
    (.single sender 0 0 (Unsigned.addSat s.leftover s.refund).toNat +
      .single j.context.feeRecipient 0 0 s.fee.toNat)

/-- The receipt of a plain transfer. -/
def plainReceipt (j : Job) : Receipt where
  transaction := j.transaction.hash
  cumulativeGas := Gas.add j.gasBefore j.basicCost
  gasUsed := j.basicCost
  rentGasUsed := j.transaction.rentGasLimit
  status := .success
  logs := []

theorem quiet_plainResult (j : Job) : j.plainResult.Quiet := RunResult.quiet_empty.spend _

/-! ## The run -/

/-- What is asked for depends on the state through code alone. -/
theorem dispatch_congr {w : View} (hcode : ∀ a, w.code? a = v.code? a) :
    j.dispatch w = j.dispatch v := by
  simp only [dispatch, hcode]

/-- The first two phases of a plain transfer whose money is there. -/
theorem played_plain (hchain : j.isLocal = false)
    (hdebit : (outer.raiseNonce j.transaction.sender).debit j.transaction.sender j.prepayment =
      .ok paid) (hplain : j.dispatch paid = .plain receiver)
    (htransfer : paid.push.transfer j.transaction.sender receiver j.transaction.payload.value =
      .ok v) (senders : SenderCache) :
    j.played outer senders =
      { outer := v.commit.pop
        senders
        gasLeft := j.plainGasLeft
        prepaid := true
        result := j.plainResult } := by
  have hbelow : v.below = paid.layers := View.below_of_transfer htransfer
  have hinside : (⟨v.top, paid.layers⟩ : View) = v := View.top_on_below hbelow
  have hperform : j.perform { outer := paid, senders, prepaid := !j.isLocal } =
      { j.chargeBasic { outer := paid, senders, prepaid := !j.isLocal } with inner := v.top } := by
    simp only [perform, hplain]
    exact moveValue_of_transfer rfl htransfer
  rw [played, run_of_paid hchain hdebit, hperform]
  change Execution.commit _ = _
  simp only [Execution.commit_eq, Execution.inside, chargeBasic, hinside, hchain, Bool.not_false]
  rfl

/-- The money asked for covers the price of both limits and the value, unless nothing is
charged. -/
theorem exactTotal_of_charged (hcost : j.basicCost ≠ 0) :
    j.exactTotal = j.transaction.payload.value.toNat +
      (j.transaction.gasLimit.toNat + j.transaction.rentGasLimit.toNat) *
        j.transaction.payload.gasPrice.toNat := by
  have hpositive : 0 < j.exactCost := by
    rw [← basicCost_pos_iff, Unsigned.lt_iff, Unsigned.toNat_zero]
    rw [Ne, ← Unsigned.toNat_inj, Unsigned.toNat_zero] at hcost
    omega
  rw [exactTotal, if_pos hpositive, Transaction.toNat_gasLimit, Transaction.toNat_rentGasLimit]

/-- A sender who has the money can pay in advance and then send the value. -/
theorem exists_plain_payments (hcost : j.basicCost ≠ 0)
    (hfunds : j.exactTotal ≤ (outer.balance j.transaction.sender).toNat) (receiver : Address) :
    ∃ paid v,
      (outer.raiseNonce j.transaction.sender).debit j.transaction.sender j.prepayment = .ok paid ∧
        paid.push.transfer j.transaction.sender receiver j.transaction.payload.value = .ok v := by
  rw [exactTotal_of_charged hcost] at hfunds
  have hprepayment := j.toNat_prepayment
  have hcovered : j.prepayment.toNat ≤
      ((outer.raiseNonce j.transaction.sender).balance j.transaction.sender).toNat := by
    rw [View.balance_raiseNonce]
    omega
  obtain ⟨paid, hdebit⟩ := View.exists_debit hcovered
  have hleft : j.transaction.payload.value.toNat ≤
      (paid.push.balance j.transaction.sender).toNat := by
    have htaken := View.balance_debit hdebit j.transaction.sender
    rw [if_pos rfl, View.balance_raiseNonce] at htaken
    rw [View.balance_push]
    omega
  obtain ⟨v, htransfer⟩ := View.exists_transfer hleft receiver
  exact ⟨paid, v, hdebit, htransfer⟩

/-- What goes back is within the limit, as nothing is refunded. -/
theorem back_plainSettlement (j : Job) :
    j.plainSettlement.gasLeft.toNat + j.plainSettlement.gasRefund.toNat ≤
      j.plainSettlement.gasLimit.toNat := by
  have hrefund : j.plainSettlement.gasRefund = 0 := j.gasRefund_of_quiet j.quiet_plainResult _
  have hleft : j.plainSettlement.gasLeft.toNat =
      j.transaction.gasLimit.toNat - j.basicCost.toNat := rfl
  have hlimit : j.plainSettlement.gasLimit = j.transaction.gasLimit := rfl
  rw [hrefund, hleft, hlimit, Unsigned.toNat_zero]
  omega

/-- The payments have their whole effect while they are in the range of balances. -/
theorem shows_payOut (j : Job) (s : Settlement) (v : View)
    (hrange : v.wealth + (Unsigned.addSat s.leftover s.refund).toNat + s.fee.toNat < 1 <<< 128) :
    (Effect.single j.transaction.sender 0 0 (Unsigned.addSat s.leftover s.refund).toNat +
      Effect.single j.context.feeRecipient 0 0 s.fee.toNat).Shows v (j.payOut s v) := by
  have hsender := v.balance_le_wealth j.transaction.sender
  have hwealth := v.wealth_credit j.transaction.sender (Unsigned.addSat s.leftover s.refund)
    (by omega)
  have hrecipient := (v.credit j.transaction.sender
    (Unsigned.addSat s.leftover s.refund)).balance_le_wealth j.context.feeRecipient
  exact (Effect.shows_credit (by omega)).trans (Effect.shows_credit (by omega))

/-- What a plain transfer does to a state in which its sender has the money: it has its effect, and
makes no money. -/
theorem shows_plainEffect (hrange : outer.wealth < 2 ^ 128 - 1)
    (hdebit : (outer.raiseNonce j.transaction.sender).debit j.transaction.sender j.prepayment =
      .ok paid)
    (htransfer : paid.push.transfer j.transaction.sender receiver j.transaction.payload.value =
      .ok v) :
    (j.plainEffect receiver).Shows outer (j.payOut j.plainSettlement v.commit.pop) ∧
      (j.payOut j.plainSettlement v.commit.pop).wealth ≤ outer.wealth := by
  have hpaid := wealth_of_prepaid (by omega) hdebit
  have hbelow : paid.push.wealth < 1 <<< 128 := by
    rw [View.wealth_push]
    omega
  have hkept : v.commit.pop.wealth = paid.wealth := by
    rw [View.wealth_pop_commit, View.wealth_transfer hbelow htransfer, View.wealth_push]
  have hlimit : j.plainSettlement.gasLimit = j.transaction.gasLimit := rfl
  have hprice : j.plainSettlement.gasPrice = j.transaction.payload.gasPrice := rfl
  have hback := j.back_plainSettlement
  have hsum := j.plainSettlement.payments_sum hback (by rw [hlimit, hprice]; omega)
  have hwealth := j.wealth_payOut j.plainSettlement v.commit.pop hback
    (by rw [hkept, hlimit, hprice]; omega)
  rw [hlimit, hprice] at hsum hwealth
  refine ⟨?_, by omega⟩
  -- the effects of the operations in their order; a view on top and its commit have none
  have hprepaid := (Effect.shows_raiseNonce outer j.transaction.sender).trans
    (Effect.shows_debit hdebit)
  have hinside := hprepaid.same paid.account?_push paid.word_push
  have hmoved := hinside.trans (Effect.shows_transfer hbelow htransfer)
  have hcommitted := hmoved.same v.account?_pop_commit v.word_pop_commit
  exact hcommitted.trans (j.shows_payOut j.plainSettlement v.commit.pop (by omega))

/-- The receipt that is left when the run is settled. -/
theorem receipt_finalize_plain (hchain : j.isLocal = false)
    (hcost : j.basicCost.toNat ≤ j.transaction.gasLimit.toNat) (v : View)
    (senders : SenderCache) :
    j.receipt (j.finalize
      { outer := v
        senders
        gasLeft := j.plainGasLeft
        prepaid := true
        result := j.plainResult }) = j.plainReceipt := by
  have hused : j.gasUsed (j.finalize
      { outer := v
        senders
        gasLeft := j.plainGasLeft
        prepaid := true
        result := j.plainResult }) = j.basicCost := by
    have hrefund : (j.settlement (creditDestroyed j.plainResult) j.plainGasLeft).gasRefund = 0 :=
      j.gasRefund_of_quiet j.quiet_plainResult _
    have hleft : j.plainGasLeft.toNat = j.transaction.gasLimit.toNat - j.basicCost.toNat := rfl
    rw [← Unsigned.toNat_inj, toNat_gasUsed_finalize hchain]
    change _ - (j.plainGasLeft.toNat +
      (j.settlement (creditDestroyed j.plainResult) j.plainGasLeft).gasRefund.toNat) = _
    rw [hrefund, hleft, Unsigned.toNat_zero]
    omega
  have hrent : j.context.gasRules.subOrZero j.transaction.rentGasLimit 0 =
      j.transaction.rentGasLimit := by
    rw [← Unsigned.toNat_inj, GasRules.toNat_subOrZero, Unsigned.toNat_zero, Nat.sub_zero]
  rw [receipt, hused, finalize_on_chain hchain, rentGasUsed, hrent]
  rfl

/-- A plain transfer that is accepted and whose sender has the money succeeds.  What it does does
not depend on the state. -/
theorem plain_execute (hchain : j.isLocal = false) (hcost : j.basicCost ≠ 0)
    (hplain : j.dispatch outer = .plain receiver) (hrange : outer.wealth < 2 ^ 128 - 1)
    (hfunds : j.exactTotal ≤ (outer.balance j.transaction.sender).toNat)
    (haccepted : (j.execute outer senders).accepted = true) :
    (j.plainEffect receiver).Shows outer (j.execute outer senders).outer ∧
      (j.execute outer senders).outer.wealth ≤ outer.wealth ∧
      j.receipt (j.execute outer senders) = j.plainReceipt := by
  obtain ⟨paid, v, hdebit, htransfer⟩ := exists_plain_payments hcost hfunds receiver
  have hprepaid := (Effect.shows_raiseNonce outer j.transaction.sender).trans
    (Effect.shows_debit hdebit)
  have hdispatch : j.dispatch paid = .plain receiver :=
    (dispatch_congr hprepaid.code?).trans hplain
  have hplayed := played_plain hchain hdebit hdispatch htransfer (j.validate outer senders).2
  have hquiet := j.quiet_plainResult
  obtain ⟨hshows, hwealth⟩ := shows_plainEffect hrange hdebit htransfer
  have hreceipt := receipt_finalize_plain hchain (basicCost_le_of_accepted hchain haccepted)
    v.commit.pop (j.validate outer senders).2
  have houter : (j.execute outer senders).outer =
      j.payOut j.plainSettlement v.commit.pop := by
    rw [execute_of_accepted haccepted, hplayed, outer_finalize_of_quiet hchain rfl hquiet,
      if_pos rfl]
    rfl
  rw [houter, execute_of_accepted haccepted, hplayed]
  exact ⟨hshows, hwealth, hreceipt⟩

/-! ## Two transfers -/

/-- The transaction when another one has been executed just before it in the block. -/
def following (k j : Job) (e : Execution) : Job :=
  { k with index := j.index + 1, gasBefore := Gas.add j.gasBefore (j.gasUsed e) }

theorem isLocal_following (k j : Job) (e : Execution) : (k.following j e).isLocal = k.isLocal := rfl

theorem transaction_following (k j : Job) (e : Execution) :
    (k.following j e).transaction = k.transaction := rfl

theorem basicCost_following (k j : Job) (e : Execution) :
    (k.following j e).basicCost = k.basicCost := rfl

theorem exactTotal_following (k j : Job) (e : Execution) :
    (k.following j e).exactTotal = k.exactTotal := rfl

theorem dispatch_following (k j : Job) (e : Execution) (v : View) :
    (k.following j e).dispatch v = k.dispatch v := rfl

theorem plainEffect_following (k j : Job) (e : Execution) (receiver : Address) :
    (k.following j e).plainEffect receiver = k.plainEffect receiver := rfl

/-- What is before it in the block shows on a receipt in the gas used so far alone. -/
theorem plainReceipt_following (k j : Job) (e : Execution) :
    (k.following j e).plainReceipt =
      { k.plainReceipt with cumulativeGas := (k.following j e).plainReceipt.cumulativeGas } := rfl

/-- A plain transfer takes from its sender alone. -/
theorem paid_plainEffect {a : Address} (hother : a ≠ j.transaction.sender) (receiver : Address) :
    (j.plainEffect receiver).paid a = 0 := by
  simp [plainEffect, Effect.single, hother]

/-- Executes two transactions, the second on what the first has left. -/
def executeBoth (j k : Job) (outer : View) (senders : SenderCache) : Execution × Execution :=
  let first := j.execute outer senders
  (first, (k.following j first).execute first.outer first.senders)

/-- Two plain transfers of different senders, each of whom has the money. -/
theorem executeBoth_plain (hj : j.isLocal = false) (hk : k.isLocal = false)
    (hsenders : j.transaction.sender ≠ k.transaction.sender) (hjcost : j.basicCost ≠ 0)
    (hkcost : k.basicCost ≠ 0) {other : Address} (hjplain : j.dispatch outer = .plain receiver)
    (hkplain : k.dispatch outer = .plain other) (hrange : outer.wealth < 2 ^ 128 - 1)
    (hjfunds : j.exactTotal ≤ (outer.balance j.transaction.sender).toNat)
    (hkfunds : k.exactTotal ≤ (outer.balance k.transaction.sender).toNat)
    (haccepted : (j.executeBoth k outer senders).1.accepted = true)
    (hnext : (j.executeBoth k outer senders).2.accepted = true) :
    (j.plainEffect receiver + k.plainEffect other).Shows outer
        (j.executeBoth k outer senders).2.outer ∧
      j.receipt (j.executeBoth k outer senders).1 = j.plainReceipt ∧
      (k.following j (j.executeBoth k outer senders).1).receipt
          (j.executeBoth k outer senders).2 =
        (k.following j (j.executeBoth k outer senders).1).plainReceipt := by
  obtain ⟨hfirst, hwealth, hreceipt⟩ :=
    plain_execute hj hjcost hjplain hrange hjfunds haccepted
  simp only [executeBoth] at hnext ⊢
  generalize j.execute outer senders = first at hfirst hwealth hreceipt hnext ⊢
  have hdispatch : (k.following j first).dispatch first.outer = .plain other := by
    rw [dispatch_following, dispatch_congr hfirst.code?, hkplain]
  -- the first transfer takes nothing from the second sender
  have hfunds : (k.following j first).exactTotal ≤
      (first.outer.balance (k.following j first).transaction.sender).toNat := by
    have hbalance := hfirst.balance k.transaction.sender
    rw [paid_plainEffect hsenders.symm] at hbalance
    rw [exactTotal_following, transaction_following]
    omega
  have hcost : (k.following j first).basicCost ≠ 0 := by
    rw [basicCost_following]
    exact hkcost
  obtain ⟨hsecond, -, hreceipt'⟩ :=
    plain_execute ((k.isLocal_following j first).trans hk) hcost hdispatch (by omega) hfunds hnext
  rw [plainEffect_following] at hsecond
  exact ⟨hfirst.trans hsecond, hreceipt, hreceipt'⟩

/-- Two plain transfers of different senders commute: if both are accepted in both orders, the
orders lead to the same state, and to the same receipts but for the gas used so far. -/
theorem transfers_commute (hj : j.isLocal = false) (hk : k.isLocal = false)
    (hsenders : j.transaction.sender ≠ k.transaction.sender) (hjcost : j.basicCost ≠ 0)
    (hkcost : k.basicCost ≠ 0) {other : Address} (hjplain : j.dispatch outer = .plain receiver)
    (hkplain : k.dispatch outer = .plain other) (hrange : outer.wealth < 2 ^ 128 - 1)
    (hsound : senders.Sound [j.transaction, k.transaction])
    (haccepted : (j.executeBoth k outer senders).1.accepted = true ∧
      (j.executeBoth k outer senders).2.accepted = true ∧
      (k.executeBoth j outer senders).1.accepted = true ∧
      (k.executeBoth j outer senders).2.accepted = true) :
    let jk := j.executeBoth k outer senders
    let kj := k.executeBoth j outer senders
    jk.2.outer.shown = kj.2.outer.shown ∧
      (j.following k kj.1).receipt kj.2 =
        { j.receipt jk.1 with
          cumulativeGas := ((j.following k kj.1).receipt kj.2).cumulativeGas } ∧
      (k.following j jk.1).receipt jk.2 =
        { k.receipt kj.1 with
          cumulativeGas := ((k.following j jk.1).receipt jk.2).cumulativeGas } := by
  intro jk kj
  obtain ⟨hfirst, hsecond, hfirst', hsecond'⟩ := haccepted
  have hjheld := outer.balance_le_wealth j.transaction.sender
  have hkheld := outer.balance_le_wealth k.transaction.sender
  have hjfunds := exactTotal_le_of_accepted hj hsound (by simp) (by omega) hfirst
  have hkfunds := exactTotal_le_of_accepted hk hsound (by simp) (by omega) hfirst'
  obtain ⟨hshows, hjreceipt, hkfollowing⟩ := executeBoth_plain hj hk hsenders hjcost hkcost
    hjplain hkplain hrange hjfunds hkfunds hfirst hsecond
  obtain ⟨hshows', hkreceipt, hjfollowing⟩ := executeBoth_plain hk hj hsenders.symm hkcost hjcost
    hkplain hjplain hrange hkfunds hjfunds hfirst' hsecond'
  rw [Effect.add_comm] at hshows'
  refine ⟨hshows.shown_eq hshows', ?_, ?_⟩
  · rw [hjfollowing, hjreceipt]
    exact j.plainReceipt_following k kj.1
  · rw [hkfollowing, hkreceipt]
    exact k.plainReceipt_following j jk.1

/-- A receiver without a built-in contract and without code is sent money alone. -/
theorem dispatch_of_no_code (hreceiver : j.transaction.receiver? = some receiver)
    (hcontract : (j.context.registry.contract? j.context.active receiver).isNone = true)
    (hcode : outer.code? receiver = none) : j.dispatch outer = .plain receiver := by
  rw [Option.isNone_iff_eq_none] at hcontract
  simp only [dispatch, hreceiver, hcontract, hcode]

/-- Another spelling of the neutral key, with the other sign.  It has an address of its own. -/
def mirroredKey : Envelope :=
  ⟨Octets.ofNat .publicKey ((1 <<< 248) + 0x80), Octets.ofNat .signature (1 <<< 504)⟩

/-- A transfer that a key signs. -/
def transferOf (key : Envelope) (receiver : Address) (value : Balance) : Job :=
  { sample {} [] with
    transaction :=
      ⟨{ gasPrice := 2, gasLimit := 30000, rentGasLimit := 10, receiver := receiver.toBytes, value },
        .signed key⟩ }

/-- A state in which both spellings of the key have some money. -/
def sharedView : View := View.sample.put mirroredKey.signer (Account.ofBalance 500000)

/-- A transfer of the neutral key to its other spelling. -/
def outward : Job := transferOf Envelope.neutral mirroredKey.signer 60

/-- A transfer in the other direction. -/
def homeward : Job := transferOf mirroredKey Envelope.neutral.signer 7

/-- Two keys can send money to each other in either order. -/
theorem transfers_commute_mutual :
    (outward.executeBoth homeward sharedView (SenderCache.ofCapacity 1)).2.outer.shown =
      (homeward.executeBoth outward sharedView (SenderCache.ofCapacity 1)).2.outer.shown := by
  have hpair : outward.transaction.sender ≠ homeward.transaction.sender ∧
      outward.basicCost ≠ 0 ∧ homeward.basicCost ≠ 0 ∧ sharedView.wealth < 2 ^ 128 - 1 := by
    decide +kernel
  have houtward : outward.transaction.receiver? = some mirroredKey.signer ∧
      (outward.context.registry.contract? outward.context.active
        mirroredKey.signer).isNone = true ∧
      sharedView.code? mirroredKey.signer = none := by
    decide +kernel
  have hhomeward : homeward.transaction.receiver? = some Envelope.neutral.signer ∧
      (homeward.context.registry.contract? homeward.context.active
        Envelope.neutral.signer).isNone = true ∧
      sharedView.code? Envelope.neutral.signer = none := by
    decide +kernel
  have haccepted :
      (outward.executeBoth homeward sharedView (SenderCache.ofCapacity 1)).1.accepted = true ∧
        (outward.executeBoth homeward sharedView (SenderCache.ofCapacity 1)).2.accepted = true ∧
        (homeward.executeBoth outward sharedView (SenderCache.ofCapacity 1)).1.accepted = true ∧
        (homeward.executeBoth outward sharedView
          (SenderCache.ofCapacity 1)).2.accepted = true := by
    decide +kernel
  obtain ⟨hsenders, hcost, hcost', hrange⟩ := hpair
  have hplain := dispatch_of_no_code houtward.1 houtward.2.1 houtward.2.2
  have hplain' := dispatch_of_no_code hhomeward.1 hhomeward.2.1 hhomeward.2.2
  have hcommute := transfers_commute rfl rfl hsenders hcost hcost' hplain hplain' hrange
    (SenderCache.sound_of_empty rfl _) haccepted
  exact hcommute.1

end Job

end LedgerExec
