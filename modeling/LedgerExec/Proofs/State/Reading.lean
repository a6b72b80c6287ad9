import LedgerExec.State.View
set_option autoImplicit false

/-!
# Reading after writing

What a pile of layers shows after each thing that can be done to it.  A write is
seen at its own place and nowhere else; a commit hands down a whole layer entry by
entry and is not seen at all from above; the layers below the topmost are touched
by `commit` alone.  Later modules reason about views through these equations and
open neither the maps nor the folds of a layer.

None of the equations asks the root to be tidy: a root that holds a zero word or
the mark of a deleted account reads like one that does not.
-/

namespace LedgerExec

/-! ## Folds over the entries of a map

A fold over a map or a set writes each key once, so what is read under one key
afterwards depends on the entry of that key alone. -/

/-- A fold whose every step leaves a reading alone leaves it alone. -/
theorem read_foldl_of_miss {ε σ β : Type} (read : σ → β) {step : σ → ε → σ} {l : List ε}
    (miss : ∀ s, ∀ x ∈ l, read (step s x) = read s) (s : σ) :
    read (l.foldl step s) = read s := by
  induction l generalizing s with
  | nil => rfl
  | cons x l ih =>
      have hrest := ih (fun s y hy => miss s y (List.mem_cons_of_mem x hy)) (step s x)
      rw [List.foldl_cons, hrest, miss s x List.mem_cons_self]

/-- A fold in which one element writes a reading and no other touches it. -/
theorem read_foldl_of_hit {ε σ β : Type} (read : σ → β) (write : β → β) {step : σ → ε → σ}
    {before after : List ε} {x : ε} (hit : ∀ s, read (step s x) = write (read s))
    (missBefore : ∀ s, ∀ y ∈ before, read (step s y) = read s)
    (missAfter : ∀ s, ∀ y ∈ after, read (step s y) = read s) (s : σ) :
    read ((before ++ x :: after).foldl step s) = write (read s) := by
  rw [List.foldl_append, List.foldl_cons, read_foldl_of_miss read missAfter, hit,
    read_foldl_of_miss read missBefore]

section Keyed

variable {κ ν σ β : Type} [Ord κ] [Std.TransOrd κ] [Std.LawfulEqOrd κ]

/-- What is read under a key after a fold over the entries of a map. -/
theorem read_foldl_entries (m : Std.ExtTreeMap κ ν) (k : κ) (read : σ → β) (write : ν → β → β)
    {step : σ → κ × ν → σ} (hit : ∀ s v, read (step s (k, v)) = write v (read s))
    (miss : ∀ s k' v, k' ≠ k → read (step s (k', v)) = read s) (s : σ) :
    read (m.toList.foldl step s) =
      match m[k]? with
      | some v => write v (read s)
      | none => read s := by
  cases hk : m[k]? with
  | none =>
      apply read_foldl_of_miss
      rintro s ⟨k', v⟩ hmem
      apply miss
      rintro rfl
      rw [Std.ExtTreeMap.mem_toList_iff_getElem?_eq_some] at hmem
      simp [hk] at hmem
  | some v =>
      have hmem : (k, v) ∈ m.toList := Std.ExtTreeMap.mem_toList_iff_getElem?_eq_some.mpr hk
      have hdistinct := Std.ExtTreeMap.distinct_keys_toList (t := m)
      obtain ⟨before, after, hlist⟩ := List.append_of_mem hmem
      rw [hlist, List.pairwise_append, List.pairwise_cons] at hdistinct
      obtain ⟨-, ⟨hafter, -⟩, hbefore⟩ := hdistinct
      rw [hlist]
      apply read_foldl_of_hit read (write v) (hit · v)
      · rintro s ⟨k', v'⟩ hentry
        apply miss
        rintro rfl
        exact hbefore (k', v') hentry (k', v) List.mem_cons_self Std.ReflOrd.compare_self
      · rintro s ⟨k', v'⟩ hentry
        apply miss
        rintro rfl
        exact hafter (k', v') hentry Std.ReflOrd.compare_self

/-- What is read under a key after a fold over a set. -/
theorem read_foldl_elements (t : Std.ExtTreeSet κ) (k : κ) (read : σ → β) (write : β → β)
    {step : σ → κ → σ} (hit : ∀ s, read (step s k) = write (read s))
    (miss : ∀ s k', k' ≠ k → read (step s k') = read s) (s : σ) :
    read (t.toList.foldl step s) = if k ∈ t then write (read s) else read s := by
  by_cases hk : k ∈ t
  · have hmem : k ∈ t.toList := Std.ExtTreeSet.mem_toList.mpr hk
    have hdistinct := Std.ExtTreeSet.distinct_toList (t := t)
    obtain ⟨before, after, hlist⟩ := List.append_of_mem hmem
    rw [hlist, List.pairwise_append, List.pairwise_cons] at hdistinct
    obtain ⟨-, ⟨hafter, -⟩, hbefore⟩ := hdistinct
    rw [hlist, if_pos hk]
    apply read_foldl_of_hit read write hit
    · intro s k' hother
      apply miss
      rintro rfl
      exact hbefore k' hother k' List.mem_cons_self Std.ReflOrd.compare_self
    · intro s k' hother
      apply miss
      rintro rfl
      exact hafter k' hother Std.ReflOrd.compare_self
  · rw [if_neg hk]
    apply read_foldl_of_miss
    intro s k' hmem
    apply miss
    rintro rfl
    exact hk (Std.ExtTreeSet.mem_toList.mp hmem)

end Keyed

/-! ## Layers

`rest` is what a layer stands on, so the layer is the root exactly when `rest` is
empty.  There the write that would leave a mark leaves nothing, and reads the same. -/

namespace Layer

variable (l above : Layer) (rest : List Layer)

theorem account?_setAccount (address : Address) (entry : Option Account) (a : Address) :
    account? (l.setAccount rest.isEmpty address entry :: rest) a =
      if a = address then entry else account? (l :: rest) a := by
  by_cases hroot : rest.isEmpty && entry.isNone
  · obtain ⟨hrest, hentry⟩ : rest = [] ∧ entry = none := by simpa using hroot
    subst hrest hentry
    by_cases ha : a = address
    · simp [setAccount, account?, ha]
    · simp [setAccount, account?, ha, Ne.symm ha, Std.ExtTreeMap.getElem?_erase]
  · by_cases ha : a = address
    · simp [setAccount, hroot, account?, ha]
    · simp [setAccount, hroot, account?, ha, Ne.symm ha, Std.ExtTreeMap.getElem?_insert]

theorem word_setAccount (address : Address) (entry : Option Account) (slot : Slot) :
    word (l.setAccount rest.isEmpty address entry :: rest) slot = word (l :: rest) slot := by
  unfold setAccount
  split <;> rfl

theorem account?_setWord (slot : Slot) (value : Word) (a : Address) :
    account? (l.setWord rest.isEmpty slot value :: rest) a = account? (l :: rest) a := by
  unfold setWord
  split <;> rfl

theorem word_setWord (slot : Slot) (value : Word) (s : Slot) :
    word (l.setWord rest.isEmpty slot value :: rest) s =
      if s = slot then value else word (l :: rest) s := by
  by_cases hroot : rest.isEmpty && value.isZero
  · obtain ⟨hrest, hvalue⟩ : rest = [] ∧ value.isZero = true := by simpa using hroot
    have hzero : value = Octets.zero := by
      apply Octets.ext
      apply Unsigned.ext
      simpa [Word.isZero, Octets.zero] using hvalue
    subst hrest hzero
    by_cases hs : s = slot
    · simp [setWord, hvalue, word, hs]
    · simp [setWord, hvalue, word, hs, Ne.symm hs, Std.ExtTreeMap.getElem?_erase]
  · by_cases hs : s = slot
    · simp [setWord, hroot, word, hs]
    · simp [setWord, hroot, word, hs, Ne.symm hs, Std.ExtTreeMap.getElem?_insert]

theorem account?_wipe (address a : Address) :
    account? (l.wipe rest.isEmpty address :: rest) a = account? (l :: rest) a := rfl

theorem storage_wipe (isRoot : Bool) (address : Address) (s : Slot) :
    (l.wipe isRoot address).storage[s]? =
      if s.address = address then none else l.storage[s]? := by
  rw [wipe, Std.ExtTreeMap.getElem?_filter']
  by_cases hs : s.address = address
  · cases l.storage[s]? <;> simp [hs]
  · cases l.storage[s]? <;> simp [hs]

theorem word_wipe (address : Address) (s : Slot) :
    word (l.wipe rest.isEmpty address :: rest) s =
      if s.address = address then Octets.zero else word (l :: rest) s := by
  rw [word, word, storage_wipe]
  by_cases hs : s.address = address
  · -- below the root the mark hides the rest, at the root there is no rest
    cases rest <;> simp [wipe, word, hs]
  · cases rest <;> simp [wipe, hs, Ne.symm hs]

/-- Committing a layer is not seen from above. -/
theorem account?_absorb (a : Address) :
    account? (l.absorb rest.isEmpty above :: rest) a = account? (above :: l :: rest) a := by
  rw [absorb, read_foldl_of_miss (fun l => account? (l :: rest) a)
    (fun l x _ => account?_setWord l rest x.1 x.2 a)]
  rw [read_foldl_entries above.accounts a (fun l => account? (l :: rest) a) (fun entry _ => entry)
    (fun l entry => by rw [account?_setAccount, if_pos rfl])
    (fun l address entry ha => by rw [account?_setAccount, if_neg (Ne.symm ha)])]
  rw [read_foldl_of_miss (fun l => account? (l :: rest) a)
    (fun l address _ => account?_wipe l rest address a)]
  cases habove : above.accounts[a]? <;> simp [account?, habove]

theorem word_absorb (s : Slot) :
    word (l.absorb rest.isEmpty above :: rest) s = word (above :: l :: rest) s := by
  rw [absorb, read_foldl_entries above.storage s (fun l => word (l :: rest) s)
    (fun value _ => value)
    (fun l value => by rw [word_setWord, if_pos rfl])
    (fun l slot value hs => by rw [word_setWord, if_neg (Ne.symm hs)])]
  rw [read_foldl_of_miss (fun l => word (l :: rest) s)
    (fun l x _ => word_setAccount l rest x.1 x.2 s)]
  rw [read_foldl_elements above.wiped s.address (fun l => word (l :: rest) s)
    (fun _ => Octets.zero)
    (fun l => by rw [word_wipe, if_pos rfl])
    (fun l address ha => by rw [word_wipe, if_neg (Ne.symm ha)])]
  cases habove : above.storage[s]? <;> simp [word, habove]

/-- The accounts that a pile shows are those that it shows one by one. -/
theorem getElem?_accountsOf (ls : List Layer) (a : Address) :
    (accountsOf ls)[a]? = account? ls a := by
  induction ls with
  | nil => simp [accountsOf, account?]
  | cons l below ih =>
      rw [accountsOf, read_foldl_entries l.accounts a (fun shown => shown[a]?)
        (fun entry _ => entry)]
      · cases hentry : l.accounts[a]? <;> simp [account?, hentry, ih]
      · rintro shown (_ | account) <;> simp
      · rintro shown address (_ | account) ha
        · simp [Std.ExtTreeMap.getElem?_erase, ha]
        · simp [Std.ExtTreeMap.getElem?_insert, ha]

end Layer

/-! ## Views -/

namespace View

variable (v : View)

@[simp] theorem getElem?_accounts (a : Address) : v.accounts[a]? = v.account? a :=
  Layer.getElem?_accountsOf v.layers a

theorem accounts_congr {v w : View} (hsame : ∀ a, v.account? a = w.account? a) :
    v.accounts = w.accounts := by
  apply Std.ExtTreeMap.ext_getElem?
  intro a
  rw [getElem?_accounts, getElem?_accounts, hsame a]

/-- The account that is written when there may be none has the balance that is shown. -/
@[simp] theorem balance_accountOrFresh (a : Address) :
    (v.accountOrFresh a).balance = v.balance a := by
  cases h : v.account? a <;> simp [accountOrFresh, balance, h, Account.fresh]

/-- It has the code that is shown. -/
@[simp] theorem code?_accountOrFresh (a : Address) : (v.accountOrFresh a).code = v.code? a := by
  cases h : v.account? a <;> simp [accountOrFresh, code?, h, Account.fresh]

/-! ### Single writes -/

@[simp] theorem account?_put (address : Address) (account : Account) (a : Address) :
    (v.put address account).account? a =
      if a = address then some account else v.account? a :=
  Layer.account?_setAccount v.top v.below address (some account) a

@[simp] theorem word_put (address : Address) (account : Account) (a : Address) (key : Word) :
    (v.put address account).word a key = v.word a key :=
  Layer.word_setAccount v.top v.below address (some account) ⟨a, key⟩

@[simp] theorem account?_delete (address a : Address) :
    (v.delete address).account? a = if a = address then none else v.account? a :=
  (Layer.account?_wipe _ v.below address a).trans
    (Layer.account?_setAccount v.top v.below address none a)

@[simp] theorem word_delete (address a : Address) (key : Word) :
    (v.delete address).word a key = if a = address then Octets.zero else v.word a key := by
  have hwipe := Layer.word_wipe (v.top.setAccount v.isRoot address none) v.below address ⟨a, key⟩
  rw [show v.isRoot = v.below.isEmpty from rfl, Layer.word_setAccount] at hwipe
  exact hwipe

@[simp] theorem hasAccount_put (address : Address) (account : Account) (a : Address) :
    (v.put address account).hasAccount a = true ↔ a = address ∨ v.hasAccount a = true := by
  rw [hasAccount, account?_put]
  by_cases ha : a = address
  · simp [ha]
  · simp [ha, hasAccount]

@[simp] theorem account?_store (address : Address) (key value : Word) (a : Address) :
    (v.store address key value).account? a = v.account? a :=
  Layer.account?_setWord v.top v.below ⟨address, key⟩ value a

@[simp] theorem word_store (address : Address) (key value : Word) (a : Address) (k : Word) :
    (v.store address key value).word a k =
      if a = address ∧ k = key then value else v.word a k := by
  have hset := Layer.word_setWord v.top v.below ⟨address, key⟩ value ⟨a, k⟩
  simp only [Slot.mk.injEq] at hset
  exact hset

/-! ### The pile -/

/-- A view is its top layer on the layers below it. -/
theorem top_on_below {v : View} {layers : List Layer} (hbelow : v.below = layers) :
    (⟨v.top, layers⟩ : View) = v := by
  rw [← hbelow]

/-- The view below is the one whose layers are below. -/
theorem pop_of_below {v w : View} (hbelow : w.below = v.layers) : w.pop = v := by
  obtain ⟨top, below⟩ := w
  subst hbelow
  rfl

@[simp] theorem account?_push (a : Address) : v.push.account? a = v.account? a := by
  simp [push, account?, layers, Layer.account?]

@[simp] theorem word_push (a : Address) (key : Word) : v.push.word a key = v.word a key := by
  simp [push, word, layers, Layer.word]

/-- What a commit hands down is shown as before. -/
@[simp] theorem account?_commit (a : Address) : v.commit.account? a = v.account? a := by
  obtain ⟨top, below⟩ := v
  cases below with
  | nil => rfl
  | cons l rest =>
      have habsorb := Layer.account?_absorb l top rest a
      simpa [commit, account?, layers, Layer.account?] using habsorb

/-- A committed view is a new one on the view below. -/
theorem push_pop_commit {v : View} {l : Layer} {rest : List Layer} (hbelow : v.below = l :: rest) :
    v.commit.pop.push = v.commit := by
  obtain ⟨top, below⟩ := v
  subst hbelow
  rfl

/-- The view below shows what was committed to it; the root view has nothing to commit. -/
@[simp] theorem account?_pop_commit (a : Address) :
    v.commit.pop.account? a = v.account? a := by
  cases hbelow : v.below with
  | nil => simp [commit, pop, hbelow]
  | cons l rest =>
      rw [← account?_push, push_pop_commit hbelow, account?_commit]

@[simp] theorem word_commit (a : Address) (key : Word) : v.commit.word a key = v.word a key := by
  obtain ⟨top, below⟩ := v
  cases below with
  | nil => rfl
  | cons l rest =>
      have habsorb := Layer.word_absorb l top rest ⟨a, key⟩
      simpa [commit, word, layers, Layer.word] using habsorb

/-- The view below has the words that were committed to it. -/
@[simp] theorem word_pop_commit (a : Address) (key : Word) :
    v.commit.pop.word a key = v.word a key := by
  cases hbelow : v.below with
  | nil => simp [commit, pop, hbelow]
  | cons l rest =>
      rw [← word_push, push_pop_commit hbelow, word_commit]

/-! ### Debits and transfers -/

/-- A debit succeeds exactly when the balance covers it, and takes the amount. -/
theorem debit_eq_ok_iff {v w : View} {address : Address} {amount : Balance} :
    v.debit address amount = .ok w ↔
      ∃ rest : Balance, rest.toNat + amount.toNat = (v.balance address).toNat ∧
        w = v.put address { v.accountOrFresh address with balance := rest } := by
  simp only [debit, balance_accountOrFresh]
  cases hsub : Unsigned.sub? (v.balance address) amount with
  | none =>
      rw [Unsigned.sub?_eq_none_iff] at hsub
      simp only [reduceCtorEq, false_iff, not_exists, not_and]
      intro rest hrest
      omega
  | some left =>
      rw [Unsigned.sub?_eq_some_iff] at hsub
      simp only [Except.ok.injEq]
      constructor
      · rintro rfl
        exact ⟨left, hsub, rfl⟩
      · rintro ⟨rest, hrest, rfl⟩
        have hsame : rest = left := Unsigned.toNat_inj.mp (by omega)
        rw [hsame]

/-- A transfer is a debit and then a credit. -/
theorem transfer_eq_ok_iff {v w : View} {source target : Address} {amount : Balance} :
    v.transfer source target amount = .ok w ↔
      ∃ u, v.debit source amount = .ok u ∧ w = u.credit target amount := by
  unfold transfer
  cases v.debit source amount with
  | error fault => simp [bind, Except.bind]
  | ok u => simp [bind, Except.bind, pure, Except.pure, eq_comm]

theorem below_of_debit {v w : View} {address : Address} {amount : Balance}
    (h : v.debit address amount = .ok w) : w.below = v.below := by
  obtain ⟨rest, -, rfl⟩ := debit_eq_ok_iff.mp h
  rfl

theorem below_of_transfer {v w : View} {source target : Address} {amount : Balance}
    (h : v.transfer source target amount = .ok w) : w.below = v.below := by
  obtain ⟨u, hu, rfl⟩ := transfer_eq_ok_iff.mp h
  change u.below = v.below
  exact below_of_debit hu

end View

end LedgerExec
