import LedgerExec.Proofs.Execution.Solvency
import LedgerExec.Proofs.Execution.Transfers
set_option autoImplicit false

/-!
# What a plain transfer posts

A plain transfer touches balances at four moments: the price of both limits is taken, the
value leaves its sender and reaches its receiver, the price of the gas left over goes back,
and the fee is paid.  As nothing of it is cut off, the price of the gas left over cancels
out (`balanced_plainEffect`), and every balance changes by the value, by the price of the
gas that is used and by the price of the rent gas alone.  Addresses that coincide get the
sum of what each of them gets (`posted_of_plain`).
-/

namespace LedgerExec

namespace Job

variable {j : Job} {outer : View} {senders : SenderCache} {receiver : Address}

/-- The price of the intrinsic cost in exact numbers. -/
def exactBasicPrice (j : Job) : Nat := j.basicCost.toNat * j.transaction.payload.gasPrice.toNat

/-- The price of the limit of rent gas in exact numbers. -/
def exactRentPrice (j : Job) : Nat :=
  j.transaction.rentGasLimit.toNat * j.transaction.payload.gasPrice.toNat

/-! ## The payments in exact numbers -/

/-- The fee of a plain transfer is the price of its intrinsic cost, and what goes back is the rest
of the price of the gas limit. -/
theorem payments_plainSettlement (hcost : j.basicCost.toNat ≤ j.transaction.gasLimit.toNat)
    (hrange : j.exactPrepayment < 2 ^ 128) :
    j.plainSettlement.fee.toNat = j.exactBasicPrice ∧
      (Unsigned.addSat j.plainSettlement.leftover j.plainSettlement.refund).toNat +
          j.exactBasicPrice + j.exactRentPrice =
        j.exactPrepayment := by
  have hlimit : j.plainSettlement.gasLimit = j.transaction.gasLimit := rfl
  have hprice : j.plainSettlement.gasPrice = j.transaction.payload.gasPrice := rfl
  have hleft : j.plainSettlement.gasLeft.toNat =
      j.transaction.gasLimit.toNat - j.basicCost.toNat := rfl
  have hrefund : j.plainSettlement.gasRefund = 0 := j.gasRefund_of_quiet j.quiet_plainResult _
  have hword := j.transaction.gasLimit.isLt
  have hsplit : j.exactPrepayment =
      j.transaction.gasLimit.toNat * j.transaction.payload.gasPrice.toNat + j.exactRentPrice := by
    rw [exactPrepayment, Nat.add_mul, exactRentPrice]
  have hspent : (Unsigned.subSat j.plainSettlement.gasLimit
      (Unsigned.addSat j.plainSettlement.gasLeft j.plainSettlement.gasRefund)).toNat =
        j.basicCost.toNat := by
    rw [Unsigned.toNat_subSat, Unsigned.toNat_addSat, hlimit, hleft, hrefund, Unsigned.toNat_zero]
    omega
  have hwithin : j.exactBasicPrice ≤
      j.transaction.gasLimit.toNat * j.transaction.payload.gasPrice.toNat :=
    Nat.mul_le_mul_right _ hcost
  have hfee : j.plainSettlement.fee.toNat = j.exactBasicPrice := by
    rw [Settlement.fee, Gas.toNat_price, hspent, hprice, ← exactBasicPrice, Nat.one_shiftLeft]
    omega
  have hsum := j.plainSettlement.payments_sum j.back_plainSettlement
    (by rw [hlimit, hprice, Nat.one_shiftLeft]; omega)
  rw [hfee, hlimit, hprice] at hsum
  exact ⟨hfee, by omega⟩

/-- What is taken in advance and not used cancels out against what goes back. -/
theorem balanced_plainEffect (hcost : j.basicCost.toNat ≤ j.transaction.gasLimit.toNat)
    (hrange : j.exactPrepayment < 2 ^ 128) (receiver a : Address) :
    (j.plainEffect receiver).received a +
        (if a = j.transaction.sender then
          j.transaction.payload.value.toNat + j.exactBasicPrice + j.exactRentPrice
        else 0) =
      (j.plainEffect receiver).paid a +
        (if a = receiver then j.transaction.payload.value.toNat else 0) +
        (if a = j.context.feeRecipient then j.exactBasicPrice else 0) := by
  obtain ⟨hfee, hback⟩ := payments_plainSettlement hcost hrange
  have htaken : j.prepayment.toNat = j.exactPrepayment := by
    rw [toNat_prepayment, ← exactPrepayment]
    omega
  have hpaid : (j.plainEffect receiver).paid a =
      if a = j.transaction.sender then j.exactPrepayment + j.transaction.payload.value.toNat
      else 0 := by
    simp only [plainEffect, Effect.paid_add, Effect.single, htaken]
    split <;> simp
  have hreceived : (j.plainEffect receiver).received a =
      (if a = receiver then j.transaction.payload.value.toNat else 0) +
        ((if a = j.transaction.sender then
            (Unsigned.addSat j.plainSettlement.leftover j.plainSettlement.refund).toNat
          else 0) +
        (if a = j.context.feeRecipient then j.exactBasicPrice else 0)) := by
    simp only [plainEffect, Effect.received_add, Effect.single, hfee]
    simp
  rw [hpaid, hreceived]
  by_cases hsender : a = j.transaction.sender
  · rw [if_pos hsender, if_pos hsender, if_pos hsender]
    omega
  · rw [if_neg hsender, if_neg hsender, if_neg hsender]
    omega

/-! ## The whole -/

/-- What a plain transfer leaves of a state, address by address, and its receipt. -/
structure Posted (j : Job) (receiver : Address) (before : View) (e : Execution) : Prop where
  balance : ∀ a, (e.outer.balance a).toNat +
      (if a = j.transaction.sender then
        j.transaction.payload.value.toNat + j.exactBasicPrice + j.exactRentPrice
      else 0) =
    (before.balance a).toNat +
      (if a = receiver then j.transaction.payload.value.toNat else 0) +
      (if a = j.context.feeRecipient then j.exactBasicPrice else 0)
  nonce : ∀ a, e.outer.nonce a =
    if a = j.transaction.sender then Unsigned.addSat (before.nonce a) 1 else before.nonce a
  /-- code, storage root and the mark of a contract are what they were -/
  kept : ∀ a, e.outer.accountOrFresh a =
    { before.accountOrFresh a with nonce := e.outer.nonce a, balance := e.outer.balance a }
  word : ∀ a key, e.outer.word a key = before.word a key
  account : ∀ a, e.outer.hasAccount a = true ↔ before.hasAccount a = true ∨
    a = j.transaction.sender ∨ a = receiver ∨ a = j.context.feeRecipient
  successful : (j.receipt e).isSuccessful = true
  gasUsed : (j.receipt e).gasUsed = j.basicCost
  logs : (j.receipt e).logs = []
  cumulativeGas : (j.receipt e).cumulativeGas.toNat = j.gasBefore.toNat + j.basicCost.toNat

/-- The nonce of the sender is raised once, and no other. -/
theorem nonce_of_shows {v w : View} (hshows : (j.plainEffect receiver).Shows v w) (a : Address) :
    w.nonce a =
      if a = j.transaction.sender then Unsigned.addSat (v.nonce a) 1 else v.nonce a := by
  have hword := (v.nonce a).isLt
  have hone : (1 : Nonce).toNat = 1 := rfl
  have hnonce := hshows.nonce a
  have hcount : (j.plainEffect receiver).count a =
      if a = j.transaction.sender then 1 else 0 := by
    simp [plainEffect, Effect.single]
  rw [hcount] at hnonce
  rw [← Unsigned.toNat_inj, hnonce]
  split
  · rw [Unsigned.toNat_addSat, hone]
  · omega

/-- An accepted transfer to an account without code, in a state whose wealth is in the range of
balances, posts its value, its fee and the price of its rent gas, whatever addresses coincide. -/
theorem posted_of_plain {transactions : List Transaction} (hchain : j.isLocal = false)
    (hsound : senders.Sound transactions) (ht : j.transaction ∈ transactions)
    (hcost : 0 < j.basicCost) (hplain : j.dispatch outer = .plain receiver)
    (hrange : outer.wealth < 2 ^ 128 - 1)
    (haccepted : (j.execute outer senders).accepted = true) :
    j.Posted receiver outer (j.execute outer senders) := by
  have hheld := outer.balance_le_wealth j.transaction.sender
  have hfunds := exactTotal_le_of_accepted hchain hsound ht (by omega) haccepted
  have hcharged : j.basicCost ≠ 0 := by
    rintro hzero
    rw [hzero] at hcost
    exact absurd hcost (Nat.lt_irrefl _)
  obtain ⟨hshows, -, hreceipt⟩ :=
    plain_execute hchain hcharged hplain hrange hfunds haccepted
  obtain ⟨hblock, hceiling, hcovered⟩ :=
    checkGas_eq_ok_iff.mp (checkGas_of_accepted hchain haccepted)
  rw [exactTotal_of_basicCost hcost] at hfunds
  exact
    { balance := fun a => by
        have hbalanced := balanced_plainEffect hcovered (by omega) receiver a
        have hbalance := hshows.balance a
        omega
      nonce := nonce_of_shows hshows
      kept := hshows.kept
      word := hshows.word
      account := fun a => by
        rw [hshows.account]
        simp only [plainEffect, Effect.written_add, Effect.single, Bool.or_eq_true, beq_iff_eq]
        tauto
      successful := by rw [hreceipt]; rfl
      gasUsed := by rw [hreceipt]; rfl
      logs := by rw [hreceipt]; rfl
      cumulativeGas := by
        rw [hreceipt]
        change (Gas.add j.gasBefore j.basicCost).toNat = _
        rw [Gas.toNat_ceiling] at hceiling
        rw [Gas.toNat_add]
        omega }

/-- A transfer to the account that collects the fees. -/
def donation : Job := transferOf Envelope.neutral BuiltIn.feeCollectorAddress 60

/-- The collector gets the value and the fee, the sender loses both and the rent gas. -/
theorem posted_donation :
    let e := donation.execute View.sample (SenderCache.ofCapacity 1)
    (e.outer.balance Envelope.neutral.signer).toNat + (60 + 42000 + 20) = 1000000 ∧
      (e.outer.balance BuiltIn.feeCollectorAddress).toNat = 60 + 42000 ∧
      (e.outer.nonce Envelope.neutral.signer).toNat = 1 := by
  intro e
  have hfacts : 0 < donation.basicCost ∧ View.sample.wealth < 2 ^ 128 - 1 ∧
      e.accepted = true ∧ donation.exactBasicPrice = 42000 ∧ donation.exactRentPrice = 20 ∧
      donation.transaction.payload.value.toNat = 60 := by
    decide +kernel
  have hreceiver : donation.transaction.receiver? = some BuiltIn.feeCollectorAddress ∧
      (donation.context.registry.contract? donation.context.active
        BuiltIn.feeCollectorAddress).isNone = true ∧
      View.sample.code? BuiltIn.feeCollectorAddress = none := by
    decide +kernel
  have haddresses : donation.transaction.sender = Envelope.neutral.signer ∧
      donation.context.feeRecipient = BuiltIn.feeCollectorAddress ∧
      Envelope.neutral.signer ≠ BuiltIn.feeCollectorAddress := by
    decide +kernel
  have hbefore : (View.sample.balance Envelope.neutral.signer).toNat = 1000000 ∧
      (View.sample.balance BuiltIn.feeCollectorAddress).toNat = 0 ∧
      View.sample.nonce Envelope.neutral.signer = 0 := by
    decide +kernel
  obtain ⟨hcost, hrange, haccepted, hfee, hrent, hvalue⟩ := hfacts
  obtain ⟨hsender, hrecipient, hother⟩ := haddresses
  have hposted := posted_of_plain rfl
    (SenderCache.sound_of_empty (c := SenderCache.ofCapacity 1) rfl [_]) List.mem_cons_self hcost
    (dispatch_of_no_code hreceiver.1 hreceiver.2.1 hreceiver.2.2) hrange haccepted
  have hpaid := hposted.balance Envelope.neutral.signer
  have hreceived := hposted.balance BuiltIn.feeCollectorAddress
  have hraised := hposted.nonce Envelope.neutral.signer
  rw [hsender, if_pos rfl, hrecipient, if_neg hother, if_neg hother, hfee, hrent, hvalue,
    hbefore.1] at hpaid
  rw [hsender, if_neg hother.symm, hrecipient, if_pos rfl, if_pos rfl, hfee, hvalue,
    hbefore.2.1] at hreceived
  rw [hsender, if_pos rfl, hbefore.2.2] at hraised
  exact ⟨hpaid, by omega, by rw [hraised]; rfl⟩

end Job

end LedgerExec
