import LedgerExec.Proofs.Execution.Counted
import LedgerExec.Proofs.Execution.Performed
import LedgerExec.Proofs.State.Balances
set_option autoImplicit false

/-!
# What a transaction does to others

With the passive interpreter an accepted transaction touches an account that is neither
its sender nor created by it only by paying to it.  There is one exception: a built-in
contract is made an account when it is first called, and the new account has no storage,
whatever words there were at its address before.

`View.Spares` says this of two views and one address, and composes; every operation of an
execution is one step of it.
-/

namespace LedgerExec

namespace View

/-- What may happen to an address that nobody acts for: it may be paid, and its words may be wiped
if it had no account, for the reason that `wiped` states. -/
structure Spares (a : Address) (wiped : Prop) (v w : View) : Prop where
  balance : (v.balance a).toNat ≤ (w.balance a).toNat
  nonce : w.nonce a = v.nonce a
  code : w.code? a = v.code? a
  account : v.hasAccount a = true → w.hasAccount a = true
  word : ∀ key, w.word a key = v.word a key ∨
    w.word a key = Octets.zero ∧ v.hasAccount a = false ∧ wiped

variable {a address : Address} {P Q : Prop} {u v w : View}

/-- Nothing has happened to the address. -/
theorem spares_of_same (haccount : w.account? a = v.account? a)
    (hword : ∀ key, w.word a key = v.word a key) : v.Spares a P w where
  balance := by simp [View.balance, haccount]
  nonce := by simp [View.nonce, haccount]
  code := by simp [code?, haccount]
  account h := by rwa [hasAccount, haccount]
  word key := .inl (hword key)

theorem Spares.refl (v : View) : v.Spares a P v := spares_of_same rfl fun _ => rfl

theorem Spares.mono (h : v.Spares a P w) (himp : P → Q) : v.Spares a Q w :=
  { h with word := fun key => (h.word key).imp id fun ⟨hzero, hmissing, hp⟩ =>
      ⟨hzero, hmissing, himp hp⟩ }

theorem Spares.trans (huv : u.Spares a P v) (hvw : v.Spares a P w) : u.Spares a P w where
  balance := Nat.le_trans huv.balance hvw.balance
  nonce := hvw.nonce.trans huv.nonce
  code := hvw.code.trans huv.code
  account h := hvw.account (huv.account h)
  word key := by
    rcases hvw.word key with hsame | ⟨hzero, hmissing, hp⟩
    · rw [hsame]
      exact huv.word key
    · -- what has no account later had none before
      have hbefore : u.hasAccount a = false := by
        cases hthere : u.hasAccount a with
        | false => rfl
        | true => rw [huv.account hthere] at hmissing; exact nomatch hmissing
      exact .inr ⟨hzero, hbefore, hp⟩

/-! ### Operations -/

theorem spares_put_other (hother : a ≠ address) (account : Account) :
    v.Spares a P (v.put address account) :=
  spares_of_same (by rw [account?_put, if_neg hother]) fun key => v.word_put address account a key

/-- Writing an account that has no less than before, and the same nonce and code. -/
theorem spares_put {account : Account}
    (hbalance : (v.balance address).toNat ≤ account.balance.toNat)
    (hnonce : account.nonce = v.nonce address) (hcode : account.code = v.code? address) :
    v.Spares a P (v.put address account) := by
  by_cases ha : a = address
  · subst ha
    exact
      { balance := by
          rw [balance_put, if_pos rfl]
          exact hbalance
        nonce := by rw [nonce_put, if_pos rfl, hnonce]
        code := by simp [code?, hcode]
        account := fun _ => by simp [hasAccount]
        word := fun key => .inl (v.word_put a account a key) }
  · exact spares_put_other ha account

theorem spares_credit (v : View) (address : Address) (amount : Balance) :
    v.Spares a P (v.credit address amount) := by
  refine spares_put ?_ (v.nonce_accountOrFresh address) (v.code?_accountOrFresh address)
  have hbalance := (v.balance address).isLt
  rw [balance_accountOrFresh, Unsigned.toNat_addSat]
  omega

theorem spares_setUpContract (v : View) (address : Address) :
    v.Spares a P (v.setUpContract address) :=
  spares_put (Nat.le_of_eq (congrArg _ (v.balance_accountOrFresh address).symm))
    (v.nonce_accountOrFresh address) (v.code?_accountOrFresh address)

theorem spares_raiseNonce (hother : a ≠ address) (v : View) :
    v.Spares a P (v.raiseNonce address) := spares_put_other hother _

theorem spares_saveCode (hother : a ≠ address) (v : View) (code : Bytes) :
    v.Spares a P (v.saveCode address code) := spares_put_other hother _

theorem spares_debit (hother : a ≠ address) {amount : Balance}
    (hdebit : v.debit address amount = .ok w) : v.Spares a P w := by
  obtain ⟨rest, -, rfl⟩ := debit_eq_ok_iff.mp hdebit
  exact spares_put_other hother _

theorem spares_transfer {source target : Address} (hother : a ≠ source) {amount : Balance}
    (htransfer : v.transfer source target amount = .ok w) : v.Spares a P w := by
  obtain ⟨u, hdebit, rfl⟩ := transfer_eq_ok_iff.mp htransfer
  exact (spares_debit hother hdebit).trans (u.spares_credit target amount)

theorem spares_create (hother : a ≠ address) (v : View) : v.Spares a P (v.create address) :=
  spares_of_same (by rw [create, account?_put, if_neg hother, account?_delete, if_neg hother])
    fun key => by rw [create, word_put, word_delete, if_neg hother]

/-- An account that is created where there was none has neither more nor less, but no words. -/
theorem spares_create_of_missing (hmissing : v.hasAccount address = false) (hp : a = address → P) :
    v.Spares a P (v.create address) := by
  by_cases ha : a = address
  · subst ha
    have hnone : v.account? a = none := by simpa [hasAccount] using hmissing
    exact
      { balance := Nat.le_of_eq (congrArg _ (v.balance_create_of_missing hmissing a).symm)
        nonce := v.nonce_create_of_missing hmissing a
        code := by simp [create, code?, hnone, Account.fresh]
        account := fun hthere => by simp [hmissing] at hthere
        word := fun key => .inr ⟨by simp [create], hmissing, hp rfl⟩ }
  · exact v.spares_create ha

theorem spares_push (v : View) : v.Spares a P v.push :=
  spares_of_same (v.account?_push a) fun key => v.word_push a key

theorem spares_pop_commit (v : View) : v.Spares a P v.commit.pop :=
  spares_of_same (v.account?_pop_commit a) fun key => v.word_pop_commit a key

end View

namespace Job

variable {j : Job} {a : Address} {outer paid : View} {senders : SenderCache} {e : Execution}

/-- The address is that of a built-in contract that the transaction calls. -/
def CallsBuiltIn (j : Job) (a : Address) : Prop :=
  j.transaction.receiver? = some a ∧
    (j.context.registry.contract? j.context.active a).isSome = true

theorem spares_adopt {P : Prop} {address : Address} (hp : a = address → P) (v : View) :
    v.Spares a P (adopt address v) := by
  apply adopt_induction
  · intro hmissing
    exact (View.spares_create_of_missing hmissing hp).trans (View.spares_setUpContract _ address)
  · exact v.spares_setUpContract address
  · exact .refl v

/-- What is written before the value moves. -/
theorem Entered.spares {v : View} (h : j.Entered paid v)
    (hother : j.transaction.isCreation = true → a ≠ j.newAddress) :
    paid.Spares a (j.CallsBuiltIn a) v := by
  cases h with
  | untouched => exact paid.spares_push
  | created hcreates => exact paid.spares_push.trans (View.spares_create (hother hcreates) _)
  | contract hcreates =>
      exact (paid.spares_push.trans (View.spares_create (hother hcreates) _)).trans
        (View.spares_setUpContract _ _)
  | adopted address hreceiver hbuiltIn =>
      refine paid.spares_push.trans (spares_adopt (fun ha => ?_) paid.push)
      rw [ha]
      exact ⟨hreceiver, hbuiltIn⟩

/-- The passive interpreter returns no code, so none is refused. -/
theorem not_depositFails_of_passive (hpassive : j.context.interpreter = Interpreter.passive)
    {I : View → Prop} (hprepared : j.Prepared paid I e) : ¬j.DepositFails (j.handed? e) := by
  rintro ⟨-, program, v, hhanded, -, left, -, hrefuses⟩
  obtain ⟨-, -, started, hstarted, hcharge⟩ := handed?_eq_some_iff.mp hhanded
  obtain ⟨-, rfl⟩ := Program.charge_eq_ok_iff.mp hcharge
  have houtput : (j.outcome { started with result := started.result.spend j.basicCost } v).output =
      [] := by
    rw [outcome, hpassive]
    change started.result.output = []
    rw [(hprepared.program started hstarted).1]
  rw [houtput] at hrefuses
  exact j.not_refuses_nil left hrefuses

/-- What the program of a run has made of its view, for an address where the run creates nothing. -/
def Passes (j : Job) (a : Address) (v w : View) : Prop :=
  (j.transaction.isCreation = true → a ≠ j.newAddress) → v.Spares a (j.CallsBuiltIn a) w

/-- With the passive interpreter a run touches nobody but its sender and what it creates. -/
theorem spares_complete (hpassive : j.context.interpreter = Interpreter.passive)
    (hperformed : j.Performed paid e) (hprepared : j.Prepared paid (fun _ => True) e)
    (hsender : a ≠ j.transaction.sender) (hcreates : ¬j.Creates (j.complete e) a) :
    paid.Spares a ((j.complete e).error = none ∧ j.CallsBuiltIn a) (j.complete e).outer := by
  have hcompleted : j.Completed paid (j.Passes a) e (j.complete e) := by
    refine completed_complete hperformed hprepared (fun v _ => .refl v) ?_ ?_
    · intro hcreation w u code hu hother
      exact (hu hother).trans (View.spares_saveCode (hother hcreation) u code)
    · intro program v _
      rw [hpassive]
      exact ⟨rfl, fun w hw => hw⟩
  cases hcompleted with
  | forgotten _ houter =>
      rcases houter with hpaid | ⟨hfails, -⟩
      · rw [hpaid]
        exact .refl paid
      · exact absurd hfails (not_depositFails_of_passive hpassive hprepared)
  | refused hcall herror _ v hentered houter =>
      have hspares : paid.Spares a (j.CallsBuiltIn a) v :=
        hentered.spares fun hcreation => by simp [hcall] at hcreation
      rw [houter]
      exact (hspares.trans v.spares_pop_commit).mono fun hcalls => ⟨herror, hcalls⟩
  | moved herror _ v w u hentered htransfer hplayed houter =>
      have hother : j.transaction.isCreation = true → a ≠ j.newAddress :=
        fun hcreation ha => hcreates ⟨hcreation, herror, ha⟩
      have hmoved := (hentered.spares hother).trans (View.spares_transfer hsender htransfer)
      rw [houter]
      exact ((hmoved.trans (hplayed hother)).trans u.spares_pop_commit).mono
        fun hcalls => ⟨herror, hcalls⟩

/-- The payments of the third phase are credits. -/
theorem spares_payOut {P : Prop} (j : Job) (s : Settlement) (v : View) :
    v.Spares a P (j.payOut s v) :=
  (v.spares_credit _ _).trans (View.spares_credit _ _ _)

theorem spares_finalize {P : Prop} (hchain : j.isLocal = false) (hclean : e.inner = {})
    (hquiet : e.result.Quiet) : e.outer.Spares a P (j.finalize e).outer := by
  rw [outer_finalize_of_quiet hchain hclean hquiet]
  split
  · exact j.spares_payOut _ _
  · exact .refl e.outer

/-- What an accepted transaction does to an address that is not its sender's and where it creates
nothing, with the passive interpreter. -/
theorem spares_execute (hchain : j.isLocal = false)
    (hpassive : j.context.interpreter = Interpreter.passive)
    (haccepted : (j.execute outer senders).accepted = true) (hsender : a ≠ j.transaction.sender)
    (hcreates : ¬j.Creates (j.execute outer senders) a) :
    outer.Spares a ((j.execute outer senders).error = none ∧ j.CallsBuiltIn a)
      (j.execute outer senders).outer := by
  rw [execute_of_accepted haccepted] at hcreates ⊢
  rw [creates_finalize hchain] at hcreates
  have hraised : outer.Spares a
      ((j.played outer (j.validate outer senders).2).error = none ∧ j.CallsBuiltIn a)
      (outer.raiseNonce j.transaction.sender) := View.spares_raiseNonce hsender outer
  have herror (e : Execution) : (j.finalize e).error = e.error := by
    simp [finalize, hchain, Execution.commit_eq]
  rw [herror]
  cases hdebit :
      (outer.raiseNonce j.transaction.sender).debit j.transaction.sender j.prepayment with
  | error fault =>
      have hplayed := played_of_unpaid hchain hdebit (j.validate outer senders).2
      have houter : (j.played outer (j.validate outer senders).2).outer =
          outer.raiseNonce j.transaction.sender := by rw [hplayed]
      rw [← houter] at hraised
      refine hraised.trans (spares_finalize hchain ?_ ?_)
      · rw [hplayed]
      · rw [hplayed]
        exact RunResult.quiet_empty.fail _
  | ok paid =>
      have hpaidFor : j.PaidFor outer senders paid (fun _ => True) :=
        paidFor hchain hdebit (j.stable_true paid) fun program v _ => by
          rw [hpassive]
          exact ⟨rfl, fun hv => hv⟩
      have hperformed : j.Performed paid
          (j.run { outer, senders := (j.validate outer senders).2 }) := by
        rw [run_of_paid hchain hdebit]
        exact j.performed_perform paid _ _
      have hquiet := quiet_complete hpassive hpaidFor.prepared
      have hrun := spares_complete hpassive hperformed hpaidFor.prepared hsender hcreates
      exact ((hraised.trans (View.spares_debit hsender hdebit)).trans hrun).trans
        (spares_finalize hchain hpaidFor.ended.inner hquiet)

end Job

end LedgerExec
