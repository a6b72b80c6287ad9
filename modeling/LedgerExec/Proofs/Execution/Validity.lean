import Mathlib.Algebra.Ring.Nat
import LedgerExec.Proofs.Execution.Senders
set_option autoImplicit false

/-!
# Which transactions are valid

`Job.requirements` lists what a transaction on chain must satisfy, in exact numbers and in
the order of the checks, each with the reason for rejecting a transaction that does not
satisfy it.  The checks compute with gas that stops at its ceiling and with money that
stops at the greatest balance.  They decide the exact list all the same
(`decides_validate`): a sum that was cut off is above every limit, and above every balance
but the greatest one.

An execution that was let through never ends as a rejected one, whatever happens to it
(`accepted_execute`), so the list decides acceptance.
-/

namespace LedgerExec

/-! ## Requirements in order -/

/-- Something that a transaction must satisfy, and the reason for rejecting one that does not. -/
structure Requirement where
  holds : Prop
  reason : Rejection

namespace Requirement

/-- A verdict decides a list of requirements: it is good if all of them hold, and else it gives the
reason of the first that does not. -/
def Decides (requirements : List Requirement) : Except Rejection Unit → Prop
  | .ok () => ∀ r ∈ requirements, r.holds
  | .error reason => ∃ before r after, requirements = before ++ r :: after ∧
      (∀ s ∈ before, s.holds) ∧ ¬r.holds ∧ reason = r.reason

theorem decides_nil : Decides [] (.ok ()) := fun _ hr => nomatch hr

/-- One more check in front of others, which are made only if it succeeds. -/
theorem Decides.guard {r : Requirement} {rest : List Requirement} {p : Prop} [Decidable p]
    {reason : Rejection} {v : Except Rejection Unit} (hrest : r.holds → Decides rest v)
    (hfails : p ↔ ¬r.holds) (hreason : reason = r.reason) :
    Decides (r :: rest) (if p then .error reason else v) := by
  split
  · rename_i hp
    exact ⟨[], r, rest, rfl, (fun _ hs => nomatch hs), hfails.mp hp, hreason⟩
  · rename_i hp
    have hholds : r.holds := Classical.not_not.mp fun hr => hp (hfails.mpr hr)
    have hrest := hrest hholds
    cases v with
    | error later =>
        obtain ⟨before, s, after, rfl, hbefore, hs, hlater⟩ := hrest
        exact ⟨r :: before, s, after, rfl, List.forall_mem_cons.mpr ⟨hholds, hbefore⟩, hs, hlater⟩
    | ok => exact List.forall_mem_cons.mpr ⟨hholds, hrest⟩

/-- A single check, which names what it asks for. -/
theorem decides_ite {r : Requirement} {p : Prop} [Decidable p] {reason : Rejection}
    (hholds : p ↔ r.holds) (hreason : reason = r.reason) :
    Decides [r] (if p then .ok () else .error reason) := by
  rw [← ite_not]
  exact .guard (fun _ => decides_nil) (not_congr hholds) hreason

/-- Checks that are made only if others succeed. -/
theorem Decides.bind {first second : List Requirement} {v w : Except Rejection Unit}
    (hv : Decides first v) (hw : Decides second w) :
    Decides (first ++ second) (v >>= fun _ => w) := by
  cases v with
  | error reason =>
      obtain ⟨before, r, after, rfl, hbefore, hfails, hreason⟩ := hv
      exact ⟨before, r, after ++ second, List.append_assoc _ _ _, hbefore, hfails, hreason⟩
  | ok =>
      cases w with
      | error reason =>
          obtain ⟨before, r, after, rfl, hbefore, hfails, hreason⟩ := hw
          exact ⟨first ++ before, r, after, (List.append_assoc _ _ _).symm,
            List.forall_mem_append.mpr ⟨hv, hbefore⟩, hfails, hreason⟩
      | ok => exact List.forall_mem_append.mpr ⟨hv, hw⟩

end Requirement

/-! ## Exact costs -/

namespace Transaction

variable (t : Transaction)

/-- What a transaction is charged at least, in exact numbers. -/
def exactCost (free : Bool) : Nat :=
  if free then 0
  else
    (if t.isCreation then 53000 else 21000) + 4 * t.payload.data.count 0 +
      68 * t.payload.data.countP (· != 0)

/-- The intrinsic cost is exact up to the ceiling, however long the data is. -/
theorem toNat_intrinsicCost (free : Bool) :
    (t.intrinsicCost free).toNat = min (t.exactCost free) (2 ^ 63 - 1) := by
  have hzeros : t.payload.data.length - t.payload.data.countP (· != 0) =
      t.payload.data.count 0 := by
    have hbytes := t.payload.data.length_eq_countP_add_countP (· == 0)
    have hothers : (fun byte : UInt8 => decide ¬(byte == 0) = true) = (· != 0) := by
      funext byte
      cases hbyte : byte == 0 <;> simp [bne, hbyte]
    rw [hothers] at hbytes
    rw [hbytes, Nat.add_sub_cancel, List.count]
  have hbase : (if t.isCreation then Gas.forCreation else Gas.forCall).toNat =
      if t.isCreation then 53000 else 21000 := by
    cases t.isCreation <;> rfl
  have hzero : Gas.perZeroByte.toNat = 4 := rfl
  have hother : Gas.perDataByte.toNat = 68 := rfl
  cases free with
  | true => rfl
  | false =>
      simp only [intrinsicCost, exactCost, dataBytes, Bool.false_eq_true, if_false, Gas.toNat_add,
        Gas.toNat_mul, Unsigned.toNat_clamp, hbase, hzero, hother, hzeros, Nat.one_shiftLeft]
      omega

theorem toNat_gasLimit : t.gasLimit.toNat = min t.payload.gasLimit.toNat (2 ^ 63 - 1) := by
  rw [gasLimit, Gas.toNat_cap, Nat.one_shiftLeft]

theorem toNat_rentGasLimit :
    t.rentGasLimit.toNat = min t.payload.rentGasLimit.toNat (2 ^ 63 - 1) := by
  rw [rentGasLimit, Gas.toNat_cap, Nat.one_shiftLeft]

end Transaction

namespace Job

variable {j : Job} {outer : View} {senders : SenderCache} {e : Execution}

/-- What the transaction is charged at least, in exact numbers. -/
def exactCost (j : Job) : Nat :=
  j.transaction.exactCost (j.context.chain.setup.isFree j.transaction j.context.active)

/-- The money that the sender must have, in exact numbers: the value, and the price of both limits
unless the transaction is free. -/
def exactTotal (j : Job) : Nat :=
  j.transaction.payload.value.toNat +
    if 0 < j.exactCost then
      (min j.transaction.payload.gasLimit.toNat (2 ^ 63 - 1) +
        min j.transaction.payload.rentGasLimit.toNat (2 ^ 63 - 1)) *
        j.transaction.payload.gasPrice.toNat
    else 0

theorem toNat_basicCost (j : Job) : j.basicCost.toNat = min j.exactCost (2 ^ 63 - 1) :=
  j.transaction.toNat_intrinsicCost _

theorem basicCost_pos_iff (j : Job) : 0 < j.basicCost ↔ 0 < j.exactCost := by
  rw [Unsigned.lt_iff, Unsigned.toNat_zero, toNat_basicCost]
  omega

/-- The price of both limits is exact up to the greatest balance. -/
theorem toNat_prepayment (j : Job) :
    j.prepayment.toNat =
      min ((j.transaction.gasLimit.toNat + j.transaction.rentGasLimit.toNat) *
        j.transaction.payload.gasPrice.toNat) (2 ^ 128 - 1) := by
  rw [prepayment, Unsigned.toNat_addSat, gasPrepayment, rentPrepayment, Gas.toNat_price,
    Gas.toNat_price, Nat.add_mul, Nat.one_shiftLeft]
  omega

/-- The money asked for is exact up to the greatest balance. -/
theorem toNat_totalCost (j : Job) : j.totalCost.toNat = min j.exactTotal (2 ^ 128 - 1) := by
  have hvalue := j.transaction.payload.value.isLt
  rw [Nat.one_shiftLeft] at hvalue
  simp only [totalCost, exactTotal, basicCost_pos_iff]
  split
  · rw [Unsigned.toNat_addSat, Unsigned.toNat_addSat, gasPrepayment, rentPrepayment,
      Gas.toNat_price, Gas.toNat_price, ← Transaction.toNat_gasLimit,
      ← Transaction.toNat_rentGasLimit, Nat.add_mul, Nat.one_shiftLeft]
    omega
  · omega

end Job

/-! ## What a transaction must satisfy -/

namespace Requirement

variable (j : Job) (outer : View)

/-- The block has room for the whole gas limit, short of the ceiling of all gas. -/
def room : Requirement :=
  let gas := min j.transaction.payload.gasLimit.toNat (2 ^ 63 - 1)
  let limit := min j.context.block.gasLimit.toNat (2 ^ 63 - 1)
  { holds := gas + j.gasBefore.toNat ≤ limit ∧ gas + j.gasBefore.toNat < 2 ^ 63 - 1
    reason := .blockGasLimitReached ((limit : Int) - gas) j.transaction.gasLimit }

/-- The gas limit covers the intrinsic cost. -/
def cost : Requirement where
  holds := j.exactCost ≤ min j.transaction.payload.gasLimit.toNat (2 ^ 63 - 1)
  reason :=
    .notEnoughGas (Unsigned.clamp 64 (min j.exactCost (2 ^ 63 - 1))) j.transaction.gasLimit

/-- The nonce is that of the sender. -/
def nonce : Requirement where
  holds := outer.nonce j.transaction.sender = j.transaction.payload.nonce
  reason := .invalidNonce (outer.nonce j.transaction.sender) j.transaction.payload.nonce

/-- The sender has the money. -/
def cash : Requirement where
  holds := j.exactTotal ≤ (outer.balance j.transaction.sender).toNat
  reason :=
    .notEnoughCash (Unsigned.clamp 128 j.exactTotal) (outer.balance j.transaction.sender)

/-- The receiver is short enough. -/
def receiver : Requirement where
  holds := j.transaction.payload.receiver.length ≤ j.context.chain.limits.maxReceiverLength.toNat
  reason := .receiverTooLong j.transaction.payload.receiver.length

/-- The transaction is for every chain or for this one. -/
def chain : Requirement where
  holds := j.transaction.payload.chainId = 0 ∨
    j.transaction.payload.chainId = j.context.chain.chainId
  reason := .signatureNotAccepted j.transaction.displayAuthority

/-- The authority is a signature that verifies over the message to be signed. -/
def signature : Requirement where
  holds := ∃ envelope, j.transaction.authority = .signed envelope ∧
    envelope.verify j.transaction.payload.signingMessage = true
  reason := .signatureNotAccepted j.transaction.displayAuthority

end Requirement

theorem Transaction.isAcceptedOn_iff {t : Transaction} {chain : ChainId} :
    t.isAcceptedOn chain = true ↔ (t.payload.chainId = 0 ∨ t.payload.chainId = chain) ∧
      ∃ envelope, t.authority = .signed envelope ∧
        envelope.verify t.payload.signingMessage = true := by
  have hfor : (t.payload.chainId = 0 ∨ t.payload.chainId = chain) ↔
      ¬(t.payload.chainId ≠ 0 ∧ t.payload.chainId ≠ chain) := by
    rw [Decidable.not_and_iff_not_or_not, Decidable.not_not, Decidable.not_not]
  rw [isAcceptedOn, hfor]
  split
  · rename_i hother
    simp [hother]
  · rename_i hchain
    cases hauthority : t.authority with
    | signed envelope => simp [hchain]
    | localCall sender => simp

namespace Job

variable {j : Job} {outer : View} {senders : SenderCache} {e : Execution}

/-- What a transaction on chain must satisfy, in the order of the checks and in exact numbers. -/
def requirements (j : Job) (outer : View) : List Requirement :=
  [.room j, .cost j, .nonce j outer, .cash j outer, .receiver j, .chain j, .signature j]

/-! ## The checks decide it -/

/-- A cost beyond the ceiling is seen although it is cut off there, as the first check leaves no
room for a limit that reaches the ceiling. -/
theorem decides_checkGas (j : Job) : Requirement.Decides [.room j, .cost j] j.checkGas := by
  have hgas := j.transaction.toNat_gasLimit
  have hlimit : (Gas.cap j.context.block.gasLimit).toNat =
      min j.context.block.gasLimit.toNat (2 ^ 63 - 1) := by
    rw [Gas.toNat_cap, Nat.one_shiftLeft]
  have hcost := j.toNat_basicCost
  refine Requirement.Decides.guard (fun hfits =>
    Requirement.Decides.guard (fun _ => Requirement.decides_nil) ?_ ?_) ?_ ?_
  · rw [Unsigned.lt_iff, hcost, hgas]
    dsimp only [Requirement.room, Requirement.cost] at hfits ⊢
    omega
  · have hrequired : j.basicCost = Unsigned.clamp 64 (min j.exactCost (2 ^ 63 - 1)) := by
      rw [← Unsigned.toNat_inj, hcost, Unsigned.toNat_clamp]
      omega
    rw [hrequired]
    rfl
  · rw [Unsigned.lt_iff, ← Unsigned.toNat_inj, Gas.toNat_add, Gas.toNat_ceiling, hlimit, hgas,
      Nat.one_shiftLeft]
    dsimp only [Requirement.room]
    omega
  · rw [hlimit, hgas]
    rfl

theorem decides_checkNonce (j : Job) (outer : View) :
    Requirement.Decides [.nonce j outer] (j.checkNonce outer j.transaction.sender) :=
  Requirement.decides_ite Iff.rfl rfl

/-- A total that is cut off at the greatest balance is beyond every other one. -/
theorem decides_checkCash (j : Job)
    (hbalance : (outer.balance j.transaction.sender).toNat < 2 ^ 128 - 1) :
    Requirement.Decides [.cash j outer] (j.checkCash outer j.transaction.sender) := by
  have htotal := j.toNat_totalCost
  refine Requirement.Decides.guard (fun _ => Requirement.decides_nil) ?_ ?_
  · rw [Unsigned.lt_iff, htotal]
    dsimp only [Requirement.cash]
    omega
  · have hrequired : j.totalCost = Unsigned.clamp 128 j.exactTotal := by
      rw [← Unsigned.toNat_inj, htotal, Unsigned.toNat_clamp, Nat.one_shiftLeft]
    rw [hrequired]
    rfl

/-- A transaction without a receiver is never refused for it. -/
theorem decides_checkReceiver (j : Job) :
    Requirement.Decides [.receiver j] j.checkReceiver := by
  refine Requirement.Decides.guard (fun _ => Requirement.decides_nil) ?_ rfl
  dsimp only [Requirement.receiver]
  omega

/-- One check decides two requirements, which are refused for the same reason. -/
theorem decides_checkSignature (j : Job) :
    Requirement.Decides [.chain j, .signature j] j.checkSignature := by
  unfold checkSignature
  split
  · rename_i haccepted
    obtain ⟨hchain, hsigned⟩ := Transaction.isAcceptedOn_iff.mp haccepted
    exact List.forall_mem_cons.mpr ⟨hchain, List.forall_mem_singleton.mpr hsigned⟩
  · rename_i hrefused
    by_cases hchain : (Requirement.chain j).holds
    · refine ⟨[.chain j], .signature j, [], rfl, List.forall_mem_singleton.mpr hchain, ?_, rfl⟩
      exact fun hsigned => hrefused (Transaction.isAcceptedOn_iff.mpr ⟨hchain, hsigned⟩)
    · exact ⟨[], .chain j, [.signature j], rfl, (fun _ hs => nomatch hs), hchain, rfl⟩

/-- Validation decides the whole list, with a cache that is right about the transaction. -/
theorem decides_validate {transactions : List Transaction} (hchain : j.isLocal = false)
    (hsound : senders.Sound transactions) (ht : j.transaction ∈ transactions)
    (hbalance : (outer.balance j.transaction.sender).toNat < 2 ^ 128 - 1) :
    Requirement.Decides (j.requirements outer) (j.validate outer senders).1 := by
  have hchecked : (j.validate outer senders).1 =
      (j.checkGas >>= fun _ => j.checkSender outer j.transaction.sender) := by
    rw [validate_of_sound hchain hsound ht]
    cases j.checkGas <;> rfl
  rw [hchecked]
  exact j.decides_checkGas.bind ((j.decides_checkNonce outer).bind
    ((j.decides_checkCash hbalance).bind (j.decides_checkReceiver.bind j.decides_checkSignature)))

/-- The sender of an accepted transaction has the money that is asked for. -/
theorem exactTotal_le_of_accepted {transactions : List Transaction} (hchain : j.isLocal = false)
    (hsound : senders.Sound transactions) (ht : j.transaction ∈ transactions)
    (hbalance : (outer.balance j.transaction.sender).toNat < 2 ^ 128 - 1)
    (haccepted : (j.execute outer senders).accepted = true) :
    j.exactTotal ≤ (outer.balance j.transaction.sender).toNat := by
  have hdecided := decides_validate hchain hsound ht hbalance
  rw [validate_of_accepted haccepted] at hdecided
  exact hdecided (.cash j outer) (by simp [requirements])

/-! ## What is let through is accepted

No phase of an execution ends it as a rejected one. -/

theorem accepted_moveValue (haccepted : e.accepted = true) (target : Address) :
    (j.moveValue e target).accepted = true := by
  unfold moveValue
  split
  · exact haccepted
  · split
    · exact haccepted
    · rfl

theorem accepted_callBuiltIn (haccepted : e.accepted = true) (address : Address)
    (contract : BuiltIn) : (j.callBuiltIn e address contract).accepted = true := by
  have hanswered (used : Gas) : (j.answer e address contract used).accepted = true := by
    rw [Execution.accepted, error_answer]
    exact haccepted
  simp only [callBuiltIn]
  split
  · rfl
  · exact accepted_moveValue (hanswered _) address

theorem accepted_perform (haccepted : e.accepted = true) : (j.perform e).accepted = true := by
  unfold perform
  split
  · unfold create
    split
    · refine accepted_moveValue ?_ _
      exact haccepted
    · refine accepted_moveValue ?_ _
      exact haccepted
  · exact accepted_callBuiltIn haccepted _ _
  · refine accepted_moveValue ?_ _
    exact haccepted
  · refine accepted_moveValue ?_ _
    exact haccepted

theorem accepted_run (haccepted : e.accepted = true) : (j.run e).accepted = true := by
  have hprepaid : (j.prepay e).accepted = true := by
    simp only [prepay]
    split
    · exact haccepted
    · rfl
  unfold run
  split
  · exact accepted_perform haccepted
  · dsimp only
    split
    · exact accepted_perform hprepaid
    · exact hprepaid

theorem accepted_wrapUp {p : Play} (haccepted : p.execution.accepted = true) :
    (j.wrapUp p).execution.accepted = true := by
  have hdeposited : (j.depositNew p).execution.accepted = true := by
    have hcases := deposited_depositNew j p
    generalize j.depositNew p = deposited at hcases
    cases hcases <;> exact haccepted
  have hconcluded (p : Play) (h : p.execution.accepted = true) :
      (conclude p).execution.accepted = true := by
    have hcases := concluded_conclude p
    generalize conclude p = concluded at hcases
    cases hcases with
    | clean => exact h
    | failed => exact h
    | reverted => rfl
  simp only [wrapUp]
  split
  · exact hdeposited
  · exact hconcluded _ hdeposited

theorem accepted_play (haccepted : e.accepted = true) (program : Program) :
    (j.play e program).execution.accepted = true := by
  have hinterpreted (program : Program) : (j.interpret e program).execution.accepted = true := by
    unfold interpret
    split <;> exact haccepted
  unfold play
  split
  · exact haccepted
  · unfold afterInterpreter
    split
    · exact hinterpreted _
    · exact accepted_wrapUp (hinterpreted _)

theorem accepted_close {p : Play} (haccepted : p.execution.accepted = true) :
    (close p).accepted = true := by
  cases houtcome : p.outcome with
  | ok =>
      simp only [close, houtcome]
      exact haccepted
  | error fault =>
      obtain ⟨outer, inner, hkept⟩ := exists_keepRefused
        (abort { p.execution with result := p.program.result, program := some p.program } fault)
      simp only [close, houtcome, hkept]
      rfl

theorem accepted_complete (haccepted : e.accepted = true) : (j.complete e).accepted = true := by
  unfold complete
  split
  · exact haccepted
  · exact accepted_close (accepted_play haccepted _)

/-- A transaction is accepted exactly if its validation succeeds. -/
theorem accepted_execute (j : Job) (outer : View) (senders : SenderCache) :
    (j.execute outer senders).accepted = true ↔ (j.validate outer senders).1 = .ok () := by
  refine ⟨validate_of_accepted, fun hvalid => ?_⟩
  have hplayed (cached : SenderCache) : (j.played outer cached).accepted = true :=
    accepted_complete (accepted_run rfl)
  unfold execute
  split
  · rename_i reason cached hvalidate
    rw [hvalidate] at hvalid
    exact nomatch hvalid
  · unfold finalize
    split
    · exact hplayed _
    · exact hplayed _

/-- A rejected transaction leaves the view alone and says why. -/
theorem execute_of_rejected {reason : Rejection}
    (hvalid : (j.validate outer senders).1 = .error reason) :
    j.execute outer senders =
      { outer, senders := (j.validate outer senders).2, error := some (.rejected reason) } := by
  unfold execute
  split
  · rename_i other cached hvalidate
    rw [hvalidate] at hvalid ⊢
    rw [Except.error.inj hvalid]
  · rename_i cached hvalidate
    rw [hvalidate] at hvalid
    exact nomatch hvalid

/-- Exactly the transactions that satisfy every requirement are accepted.  Any other is rejected
for the first requirement that it does not satisfy, and leaves the view as it was. -/
theorem accepted_iff_requirements (hchain : j.isLocal = false) (hfresh : senders.entries = [])
    (hbalance : (outer.balance j.transaction.sender).toNat < 2 ^ 128 - 1) :
    ((j.execute outer senders).accepted = true ↔ ∀ r ∈ j.requirements outer, r.holds) ∧
      ((j.execute outer senders).accepted = false →
        (j.execute outer senders).outer = outer ∧
          ∃ before r after, j.requirements outer = before ++ r :: after ∧
            (∀ s ∈ before, s.holds) ∧ ¬r.holds ∧
            (j.execute outer senders).error = some (.rejected r.reason)) := by
  have hdecided := decides_validate hchain (SenderCache.sound_of_empty hfresh [j.transaction])
    List.mem_cons_self hbalance
  have haccepted := j.accepted_execute outer senders
  cases hverdict : (j.validate outer senders).1 with
  | ok =>
      rw [hverdict] at hdecided haccepted
      refine ⟨⟨fun _ => hdecided, fun _ => haccepted.mpr rfl⟩, fun hrejected => ?_⟩
      rw [haccepted.mpr rfl] at hrejected
      exact nomatch hrejected
  | error reason =>
      rw [hverdict] at hdecided haccepted
      obtain ⟨before, r, after, hlist, hbefore, hfails, rfl⟩ := hdecided
      have hexecute := execute_of_rejected hverdict
      refine ⟨⟨(fun h => nomatch haccepted.mp h), fun hall => ?_⟩, fun _ => ?_⟩
      · have hmember : r ∈ j.requirements outer := by
          rw [hlist]
          exact List.mem_append_right before List.mem_cons_self
        exact absurd (hall r hmember) hfails
      · rw [hexecute]
        exact ⟨rfl, before, r, after, hlist, hbefore, hfails, rfl⟩

/-- A transfer of the neutral key that pays for a call and sends some money. -/
def spending (value : Balance) : Job :=
  sample { gasPrice := 1, gasLimit := 21000, receiver := Address.sample.toBytes, value } []

/-- The sender can spend all that it has and not one unit more. -/
theorem accepted_iff_requirements_spending :
    (∀ r ∈ (spending 979000).requirements View.sample, r.holds) ∧
      ((spending 979001).execute View.sample (SenderCache.ofCapacity 1)).outer = View.sample ∧
      ∃ r ∈ (spending 979001).requirements View.sample, ¬r.holds := by
  have hverdicts :
      ((spending 979000).execute View.sample (SenderCache.ofCapacity 1)).accepted = true ∧
        ((spending 979001).execute View.sample (SenderCache.ofCapacity 1)).accepted = false := by
    decide +kernel
  have hall := @accepted_iff_requirements (spending 979000) View.sample (SenderCache.ofCapacity 1)
    rfl rfl (by decide +kernel)
  have hmore := @accepted_iff_requirements (spending 979001) View.sample (SenderCache.ofCapacity 1)
    rfl rfl (by decide +kernel)
  obtain ⟨houter, before, r, after, hlist, -, hfails, -⟩ := hmore.2 hverdicts.2
  refine ⟨hall.1.mp hverdicts.1, houter, r, ?_, hfails⟩
  rw [hlist]
  exact List.mem_append_right before List.mem_cons_self

end Job

end LedgerExec
