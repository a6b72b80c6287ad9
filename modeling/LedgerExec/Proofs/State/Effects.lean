import LedgerExec.Proofs.State.Balances
import LedgerExec.Proofs.State.Snapshot
set_option autoImplicit false

/-!
# Effects that add up

The effect of raising a nonce, of a debit or of a credit is a few numbers for each
address: by how much the nonce grows, what is paid and what is received, and whether the
account is written at all.  The numbers do not depend on the view, and the effects of
operations one after the other add up.  So operations that can be done in either order
lead to views that show the same: `Effect.Shows` says that a view is another one with an
effect applied to it, and an effect and a view determine what is shown
(`Shows.shown_eq`).

Nothing is cut off: a credit has its effect while the balance stays in range, and a nonce
that has reached its end stays there in either order.
-/

namespace LedgerExec

/-- What operations on accounts come to at every address. -/
@[ext]
structure Effect where
  /-- whether the account is written, and so made if there is none -/
  written : Address → Bool
  /-- by how much the nonce grows -/
  count : Address → Nat
  paid : Address → Nat
  received : Address → Nat

namespace Effect

/-- Nothing is done. -/
def idle : Effect := ⟨fun _ => false, fun _ => 0, fun _ => 0, fun _ => 0⟩

/-- The account at one address is written. -/
def single (address : Address) (count paid received : Nat) : Effect where
  written a := a == address
  count a := if a = address then count else 0
  paid a := if a = address then paid else 0
  received a := if a = address then received else 0

instance : Add Effect where
  add x y :=
    { written := fun a => x.written a || y.written a
      count := fun a => x.count a + y.count a
      paid := fun a => x.paid a + y.paid a
      received := fun a => x.received a + y.received a }

@[simp] theorem written_add (x y : Effect) (a : Address) :
    (x + y).written a = (x.written a || y.written a) := rfl

@[simp] theorem count_add (x y : Effect) (a : Address) :
    (x + y).count a = x.count a + y.count a := rfl

@[simp] theorem paid_add (x y : Effect) (a : Address) : (x + y).paid a = x.paid a + y.paid a := rfl

@[simp] theorem received_add (x y : Effect) (a : Address) :
    (x + y).received a = x.received a + y.received a := rfl

theorem add_comm (x y : Effect) : x + y = y + x := by
  ext a
  · exact Bool.or_comm _ _
  · exact Nat.add_comm _ _
  · exact Nat.add_comm _ _
  · exact Nat.add_comm _ _

theorem add_idle (x : Effect) : x + idle = x := by
  ext a
  · exact Bool.or_false _
  · rfl
  · rfl
  · rfl

/-- The view `w` is the view `v` with the effect applied to it. -/
structure Shows (x : Effect) (v w : View) : Prop where
  account : ∀ a, w.hasAccount a = (v.hasAccount a || x.written a)
  kept : ∀ a, w.accountOrFresh a =
    { v.accountOrFresh a with nonce := w.nonce a, balance := w.balance a }
  nonce : ∀ a, (w.nonce a).toNat = min ((v.nonce a).toNat + x.count a) ((1 <<< 64) - 1)
  balance : ∀ a, (w.balance a).toNat + x.paid a = (v.balance a).toNat + x.received a
  word : ∀ a key, w.word a key = v.word a key

variable {x y : Effect} {u v w : View}

/-- Two views that show the same. -/
theorem shows_idle (haccount : ∀ a, w.account? a = v.account? a)
    (hword : ∀ a key, w.word a key = v.word a key) : idle.Shows v w where
  account a := by simp [View.hasAccount, haccount, idle]
  kept a := by
    have hsame : w.accountOrFresh a = v.accountOrFresh a := by
      rw [View.accountOrFresh, haccount, View.accountOrFresh]
    rw [hsame, ← w.nonce_accountOrFresh, ← w.balance_accountOrFresh, hsame]
  nonce a := by
    have hword := (v.nonce a).isLt
    simp only [View.nonce, haccount, idle] at hword ⊢
    omega
  balance a := by simp [View.balance, haccount, idle]
  word := hword

/-- Effects one after the other add up. -/
theorem Shows.trans (huv : x.Shows u v) (hvw : y.Shows v w) : (x + y).Shows u w where
  account a := by
    rw [hvw.account, huv.account, Bool.or_assoc]
    rfl
  kept a := by rw [hvw.kept, huv.kept]
  nonce a := by
    change _ = min ((u.nonce a).toNat + (x.count a + y.count a)) _
    rw [hvw.nonce, huv.nonce]
    omega
  balance a := by
    have hfirst := huv.balance a
    have hsecond := hvw.balance a
    change _ + (x.paid a + y.paid a) = _ + (x.received a + y.received a)
    omega
  word a key := (hvw.word a key).trans (huv.word a key)

/-- The effect is seen in any view that shows the same. -/
theorem Shows.same (h : x.Shows u v) (haccount : ∀ a, w.account? a = v.account? a)
    (hword : ∀ a key, w.word a key = v.word a key) : x.Shows u w := by
  have hboth := h.trans (shows_idle haccount hword)
  rwa [add_idle] at hboth

/-- What is shown is determined by the effect and by the view that it is applied to. -/
theorem Shows.shown_eq (hv : x.Shows u v) (hw : x.Shows u w) : v.shown = w.shown := by
  refine View.shown_eq_of_reads (fun a => ?_) fun a key => ?_
  · have hnonce : v.nonce a = w.nonce a :=
      Unsigned.toNat_inj.mp ((hv.nonce a).trans (hw.nonce a).symm)
    have hbalance : v.balance a = w.balance a := by
      have hfirst := hv.balance a
      have hsecond := hw.balance a
      exact Unsigned.toNat_inj.mp (by omega)
    have hthere : v.hasAccount a = w.hasAccount a := by rw [hv.account, hw.account]
    have hsame : v.accountOrFresh a = w.accountOrFresh a := by
      rw [hv.kept, hw.kept, hnonce, hbalance]
    simp only [View.hasAccount, View.accountOrFresh] at hthere hsame
    cases hva : v.account? a <;> cases hwa : w.account? a <;> simp_all
  · rw [hv.word, hw.word]

/-- No effect changes code. -/
theorem Shows.code? (h : x.Shows v w) (a : Address) : w.code? a = v.code? a := by
  rw [← w.code?_accountOrFresh, h.kept, ← v.code?_accountOrFresh]

/-! ## Operations -/

/-- Writing an account whose nonce and balance are those that the effect leads to. -/
theorem shows_put {address : Address} {account : Account} {count paid received : Nat}
    (hkept : account =
      { v.accountOrFresh address with nonce := account.nonce, balance := account.balance })
    (hnonce : account.nonce.toNat = min ((v.nonce address).toNat + count) ((1 <<< 64) - 1))
    (hbalance : account.balance.toNat + paid = (v.balance address).toNat + received) :
    (single address count paid received).Shows v (v.put address account) where
  account a := by
    by_cases ha : a = address <;> simp [View.hasAccount, single, ha]
  kept a := by
    rw [View.nonce_put, View.balance_put]
    by_cases ha : a = address
    · rw [if_pos ha, if_pos ha, ha]
      simpa [View.accountOrFresh] using hkept
    · rw [if_neg ha, if_neg ha, ← v.nonce_accountOrFresh, ← v.balance_accountOrFresh]
      simp [View.accountOrFresh, ha]
  nonce a := by
    have hword := (v.nonce a).isLt
    rw [View.nonce_put]
    by_cases ha : a = address
    · subst ha
      simpa [single] using hnonce
    · simp only [single, if_neg ha]
      omega
  balance a := by
    rw [View.balance_put]
    by_cases ha : a = address
    · subst ha
      simpa [single] using hbalance
    · simp only [single, if_neg ha]
  word a key := v.word_put address account a key

theorem shows_raiseNonce (v : View) (address : Address) :
    (single address 1 0 0).Shows v (v.raiseNonce address) := by
  refine shows_put rfl ?_ ?_
  · rw [View.nonce_accountOrFresh]
    rfl
  · rw [View.balance_accountOrFresh]

/-- A nonce that is not raised is in range. -/
theorem toNat_nonce (v : View) (address : Address) :
    (v.nonce address).toNat = min ((v.nonce address).toNat + 0) ((1 <<< 64) - 1) := by
  have hword := (v.nonce address).isLt
  omega

theorem shows_debit {address : Address} {amount : Balance}
    (hdebit : v.debit address amount = .ok w) : (single address 0 amount.toNat 0).Shows v w := by
  obtain ⟨rest, hrest, rfl⟩ := View.debit_eq_ok_iff.mp hdebit
  refine shows_put rfl ?_ hrest
  rw [View.nonce_accountOrFresh]
  exact toNat_nonce v address

/-- A credit has its whole effect while the balance stays in range. -/
theorem shows_credit {address : Address} {amount : Balance}
    (hrange : (v.balance address).toNat + amount.toNat < 1 <<< 128) :
    (single address 0 0 amount.toNat).Shows v (v.credit address amount) := by
  refine shows_put rfl ?_ ?_
  · rw [View.nonce_accountOrFresh]
    exact toNat_nonce v address
  · rw [View.balance_accountOrFresh, Unsigned.toNat_addSat]
    omega

/-- A transfer has its whole effect while the wealth is in the range of balances. -/
theorem shows_transfer {source target : Address} {amount : Balance}
    (hrange : v.wealth < 1 <<< 128) (htransfer : v.transfer source target amount = .ok w) :
    (single source 0 amount.toNat 0 + single target 0 0 amount.toNat).Shows v w := by
  obtain ⟨u, hdebit, rfl⟩ := View.transfer_eq_ok_iff.mp htransfer
  have htaken := View.wealth_debit hdebit
  have hheld := u.balance_le_wealth target
  exact (shows_debit hdebit).trans (shows_credit (by omega))

end Effect

end LedgerExec
