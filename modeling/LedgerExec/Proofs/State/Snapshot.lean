import LedgerExec.Proofs.State.Reading
import Mathlib.Data.List.Forall2
set_option autoImplicit false

/-!
# Views as stacks of snapshots

What a view is meant to be, without layers: a snapshot is all accounts and a word
at every place, and a stack of views is a stack of whole snapshots.  Starting a
view copies the snapshot on top, a write changes the copy alone, a commit replaces
the snapshot below by the one on top, a rollback replaces the one on top by a copy
of the one below.

`View.shown` reads a snapshot off a view and `View.snapshots` a stack off a pile of
layers.  Every operation on the pile is the operation of the same name on the stack
(`snapshots_apply`), so a pile of layers with its marks for deleted accounts and
hidden storage can not be told from a stack of snapshots by reading.
-/

namespace LedgerExec

/-! ## Snapshots -/

/-- All that a view shows. -/
@[ext]
structure Snapshot where
  accounts : Std.ExtTreeMap Address Account
  word : Address → Word → Word

namespace Snapshot

/-- The account at an address. -/
def account? (s : Snapshot) (address : Address) : Option Account := s.accounts[address]?

/-- The account at an address, a new one if there is none. -/
def accountOrFresh (s : Snapshot) (address : Address) : Account :=
  (s.account? address).getD Account.fresh

/-- Writes an account. -/
def put (s : Snapshot) (address : Address) (account : Account) : Snapshot :=
  { s with accounts := s.accounts.insert address account }

/-- Removes an account and zeroes all its words. -/
def delete (s : Snapshot) (address : Address) : Snapshot where
  accounts := s.accounts.erase address
  word a key := if a = address then Octets.zero else s.word a key

/-- Writes a word. -/
def store (s : Snapshot) (address : Address) (key value : Word) : Snapshot :=
  { s with word := fun a k => if a = address ∧ k = key then value else s.word a k }

/-- Adds to a balance. -/
def credit (s : Snapshot) (address : Address) (amount : Balance) : Snapshot :=
  let account := s.accountOrFresh address
  s.put address { account with balance := Unsigned.addSat account.balance amount }

/-- Takes from a balance that covers the amount. -/
def debit (s : Snapshot) (address : Address) (amount : Balance) : Except StateFault Snapshot :=
  let account := s.accountOrFresh address
  match Unsigned.sub? account.balance amount with
  | some balance => .ok (s.put address { account with balance })
  | none => .error (.insufficientBalance address account.balance amount)

/-- Moves an amount between two accounts. -/
def transfer (s : Snapshot) (source target : Address) (amount : Balance) :
    Except StateFault Snapshot :=
  (s.debit source amount).map (·.credit target amount)

/-- Counts one more transaction of an account. -/
def raiseNonce (s : Snapshot) (address : Address) : Snapshot :=
  let account := s.accountOrFresh address
  s.put address { account with nonce := Unsigned.addSat account.nonce 1 }

/-- Gives an account code. -/
def saveCode (s : Snapshot) (address : Address) (code : Bytes) : Snapshot :=
  let account := s.accountOrFresh address
  s.put address { account with code := if code.isEmpty then none else some code }

/-- Puts a new account in the place of whatever was there. -/
def create (s : Snapshot) (address : Address) : Snapshot :=
  (s.delete address).put address Account.fresh

/-- Makes an account a contract. -/
def setUpContract (s : Snapshot) (address : Address) : Snapshot :=
  let account := s.accountOrFresh address
  s.put address { account with isContract := true, storageRoot := some Account.emptyStorageRoot }

end Snapshot

/-- What a view shows, as a snapshot. -/
def View.shown (v : View) : Snapshot := ⟨v.accounts, v.word⟩

namespace View

variable (v : View)

@[simp] theorem account?_shown (a : Address) : v.shown.account? a = v.account? a :=
  v.getElem?_accounts a

/-- Two views that show the same accounts and words show the same. -/
theorem shown_eq_of_reads {v w : View} (haccount : ∀ a, v.account? a = w.account? a)
    (hword : ∀ a key, v.word a key = w.word a key) : v.shown = w.shown := by
  apply Snapshot.ext
  · exact accounts_congr haccount
  · funext a key
    exact hword a key

/-! ## Each write on a view is the write on its snapshot -/

@[simp] theorem accountOrFresh_shown (a : Address) :
    v.shown.accountOrFresh a = v.accountOrFresh a := by
  rw [Snapshot.accountOrFresh, account?_shown, accountOrFresh]

@[simp] theorem shown_put (address : Address) (account : Account) :
    (v.put address account).shown = v.shown.put address account := by
  apply Snapshot.ext
  · apply Std.ExtTreeMap.ext_getElem?
    intro a
    change (v.put address account).accounts[a]? = (v.accounts.insert address account)[a]?
    rw [getElem?_accounts, account?_put, Std.ExtTreeMap.getElem?_insert, getElem?_accounts]
    by_cases ha : a = address
    · simp [ha]
    · simp [ha, Ne.symm ha]
  · funext a key
    exact word_put v address account a key

@[simp] theorem shown_delete (address : Address) :
    (v.delete address).shown = v.shown.delete address := by
  apply Snapshot.ext
  · apply Std.ExtTreeMap.ext_getElem?
    intro a
    change (v.delete address).accounts[a]? = (v.accounts.erase address)[a]?
    rw [getElem?_accounts, account?_delete, Std.ExtTreeMap.getElem?_erase, getElem?_accounts]
    by_cases ha : a = address
    · simp [ha]
    · simp [ha, Ne.symm ha]
  · funext a key
    exact word_delete v address a key

@[simp] theorem shown_store (address : Address) (key value : Word) :
    (v.store address key value).shown = v.shown.store address key value := by
  apply Snapshot.ext
  · apply Std.ExtTreeMap.ext_getElem?
    intro a
    change (v.store address key value).accounts[a]? = v.accounts[a]?
    rw [getElem?_accounts, account?_store, getElem?_accounts]
  · funext a k
    exact word_store v address key value a k

@[simp] theorem shown_credit (address : Address) (amount : Balance) :
    (v.credit address amount).shown = v.shown.credit address amount := by
  rw [credit, Snapshot.credit, accountOrFresh_shown, shown_put]

/-- A debit is refused on a view exactly when it is on its snapshot, with the same words. -/
@[simp] theorem shown_debit (address : Address) (amount : Balance) :
    (v.debit address amount).map shown = v.shown.debit address amount := by
  rw [debit, Snapshot.debit, accountOrFresh_shown]
  cases Unsigned.sub? (v.accountOrFresh address).balance amount with
  | none => rfl
  | some balance =>
      change Except.ok (shown _) = _
      rw [shown_put]

@[simp] theorem shown_transfer (source target : Address) (amount : Balance) :
    (v.transfer source target amount).map shown = v.shown.transfer source target amount := by
  rw [Snapshot.transfer, ← shown_debit, transfer]
  cases v.debit source amount with
  | error fault => rfl
  | ok u =>
      change Except.ok (shown _) = Except.ok _
      rw [shown_credit]

@[simp] theorem shown_raiseNonce (address : Address) :
    (v.raiseNonce address).shown = v.shown.raiseNonce address := by
  rw [raiseNonce, Snapshot.raiseNonce, accountOrFresh_shown, shown_put]

@[simp] theorem shown_saveCode (address : Address) (code : Bytes) :
    (v.saveCode address code).shown = v.shown.saveCode address code := by
  rw [saveCode, Snapshot.saveCode, accountOrFresh_shown, shown_put]

@[simp] theorem shown_create (address : Address) :
    (v.create address).shown = v.shown.create address := by
  rw [create, Snapshot.create, shown_put, shown_delete]

@[simp] theorem shown_setUpContract (address : Address) :
    (v.setUpContract address).shown = v.shown.setUpContract address := by
  rw [setUpContract, Snapshot.setUpContract, accountOrFresh_shown, shown_put]

@[simp] theorem shown_push : v.push.shown = v.shown :=
  shown_eq_of_reads v.account?_push v.word_push

@[simp] theorem shown_commit : v.commit.shown = v.shown :=
  shown_eq_of_reads v.account?_commit v.word_commit

end View

/-! ## Stacks -/

/-- A write to the view on top. -/
inductive Write where
  | put (address : Address) (account : Account)
  | delete (address : Address)
  | store (address : Address) (key value : Word)
  | credit (address : Address) (amount : Balance)
  | debit (address : Address) (amount : Balance)
  | transfer (source target : Address) (amount : Balance)
  | raiseNonce (address : Address)
  | saveCode (address : Address) (code : Bytes)
  | create (address : Address)
  | setUpContract (address : Address)
  deriving DecidableEq, Repr, Inhabited

/-- What can be done to a stack of views from its top. -/
inductive StackOp where
  | write (w : Write)
  /-- starts a view on the one on top -/
  | push
  | commit
  | rollback
  /-- closes the view on top -/
  | pop
  deriving DecidableEq, Repr, Inhabited

/-- Does a write to a view; a refused one changes nothing. -/
def View.write (v : View) : Write → View
  | .put address account => v.put address account
  | .delete address => v.delete address
  | .store address key value => v.store address key value
  | .credit address amount => v.credit address amount
  | .debit address amount => (v.debit address amount).toOption.getD v
  | .transfer source target amount => (v.transfer source target amount).toOption.getD v
  | .raiseNonce address => v.raiseNonce address
  | .saveCode address code => v.saveCode address code
  | .create address => v.create address
  | .setUpContract address => v.setUpContract address

/-- Does a write to a snapshot; a refused one changes nothing. -/
def Snapshot.write (s : Snapshot) : Write → Snapshot
  | .put address account => s.put address account
  | .delete address => s.delete address
  | .store address key value => s.store address key value
  | .credit address amount => s.credit address amount
  | .debit address amount => (s.debit address amount).toOption.getD s
  | .transfer source target amount => (s.transfer source target amount).toOption.getD s
  | .raiseNonce address => s.raiseNonce address
  | .saveCode address code => s.saveCode address code
  | .create address => s.create address
  | .setUpContract address => s.setUpContract address

/-- A stack of snapshots: the topmost, and those below it down to the root. -/
@[ext]
structure SnapshotStack where
  top : Snapshot
  below : List Snapshot

namespace SnapshotStack

/-- The snapshots, the topmost first. -/
def toList (s : SnapshotStack) : List Snapshot := s.top :: s.below

/-- One operation.  Committing, rolling back and closing do nothing to a root. -/
def apply (s : SnapshotStack) : StackOp → SnapshotStack
  | .write w => ⟨s.top.write w, s.below⟩
  | .push => ⟨s.top, s.top :: s.below⟩
  | .commit =>
    match s.below with
    | [] => s
    | _ :: rest => ⟨s.top, s.top :: rest⟩
  | .rollback =>
    match s.below with
    | [] => s
    | next :: rest => ⟨next, next :: rest⟩
  | .pop =>
    match s.below with
    | [] => s
    | next :: rest => ⟨next, rest⟩

/-- Operations one after the other. -/
def run (s : SnapshotStack) (ops : List StackOp) : SnapshotStack := ops.foldl apply s

end SnapshotStack

namespace View

/-- One operation on a pile of layers. -/
def apply (v : View) : StackOp → View
  | .write w => v.write w
  | .push => v.push
  | .commit => v.commit
  | .rollback => v.rollback
  | .pop => v.pop

/-- Operations one after the other. -/
def run (v : View) (ops : List StackOp) : View := ops.foldl apply v

/-- The views that stand on a pile of layers, the topmost first. -/
def viewsOf : List Layer → List View
  | [] => []
  | l :: rest => ⟨l, rest⟩ :: viewsOf rest

/-- A view and all those below it. -/
def views (v : View) : List View := viewsOf v.layers

/-- What the views of a stack show. -/
def snapshots (v : View) : SnapshotStack := ⟨v.shown, (viewsOf v.below).map shown⟩

theorem toList_snapshots (v : View) : v.snapshots.toList = v.views.map shown := rfl

@[simp] theorem below_write (v : View) (w : Write) : (v.write w).below = v.below := by
  cases w with
  | debit address amount =>
      simp only [write]
      cases h : v.debit address amount with
      | error fault => rfl
      | ok u => exact below_of_debit h
  | transfer source target amount =>
      simp only [write]
      cases h : v.transfer source target amount with
      | error fault => rfl
      | ok u => exact below_of_transfer h
  | _ => rfl

/-- A write shows on a view what it does to its snapshot. -/
@[simp] theorem shown_write (v : View) (w : Write) : (v.write w).shown = v.shown.write w := by
  cases w with
  | debit address amount =>
      simp only [write, Snapshot.write, ← shown_debit]
      cases v.debit address amount <;> rfl
  | transfer source target amount =>
      simp only [write, Snapshot.write, ← shown_transfer]
      cases v.transfer source target amount <;> rfl
  | _ => simp [write, Snapshot.write]

/-- One operation on a pile is one operation on its snapshots. -/
theorem snapshots_apply (v : View) (op : StackOp) :
    (v.apply op).snapshots = v.snapshots.apply op := by
  cases op with
  | write w => simp [apply, SnapshotStack.apply, snapshots]
  | push =>
      apply SnapshotStack.ext
      · exact v.shown_push
      · rfl
  | commit =>
      obtain ⟨top, below⟩ := v
      cases below with
      | nil => rfl
      | cons l rest =>
          have hcommit := shown_commit ⟨top, l :: rest⟩
          -- the new top is empty, so it shows what the layer below has taken over
          have htaken : (⟨l.absorb rest.isEmpty top, rest⟩ : View).shown =
              (⟨top, l :: rest⟩ : View).shown := by
            rw [← hcommit]
            exact (shown_push ⟨l.absorb rest.isEmpty top, rest⟩).symm
          apply SnapshotStack.ext
          · exact hcommit
          · exact congrArg (· :: (viewsOf rest).map shown) htaken
  | rollback =>
      obtain ⟨top, below⟩ := v
      cases below with
      | nil => rfl
      | cons l rest =>
          apply SnapshotStack.ext
          · exact shown_push ⟨l, rest⟩
          · rfl
  | pop =>
      obtain ⟨top, below⟩ := v
      cases below <;> rfl

/-- A run on a pile is the same run on its snapshots. -/
theorem snapshots_run (v : View) (ops : List StackOp) :
    (v.run ops).snapshots = v.snapshots.run ops := by
  induction ops generalizing v with
  | nil => rfl
  | cons op ops ih =>
      change ((v.apply op).run ops).snapshots = (v.snapshots.apply op).run ops
      rw [ih, snapshots_apply]

/-- A view reads like a snapshot: the same account at every address, the same word at every
place, and the same map of all accounts. -/
def ReadsAs (v : View) (s : Snapshot) : Prop :=
  (∀ a, v.account? a = s.account? a) ∧ (∀ a key, v.word a key = s.word a key) ∧
    v.accounts = s.accounts

theorem readsAs_shown (v : View) : v.ReadsAs v.shown :=
  ⟨fun a => (v.account?_shown a).symm, fun _ _ => rfl, rfl⟩

/-- Whatever is done from the top of a stack of views that stands on a root, every view of the
stack reads like the snapshot at its place when the same is done to whole snapshots. -/
theorem views_run_readAs (root : Layer) (ops : List StackOp) :
    List.Forall₂ ReadsAs ((⟨root, []⟩ : View).run ops).views
      ((⟨(⟨root, []⟩ : View).shown, []⟩ : SnapshotStack).run ops).toList := by
  have hrun := snapshots_run ⟨root, []⟩ ops
  have hstart : (⟨root, []⟩ : View).snapshots = ⟨(⟨root, []⟩ : View).shown, []⟩ := rfl
  rw [← hstart, ← hrun, toList_snapshots]
  generalize ((⟨root, []⟩ : View).run ops).views = views
  induction views with
  | nil => exact .nil
  | cons v views ih => exact .cons v.readsAs_shown ih

end View

end LedgerExec
