import LedgerExec.State.Tree
import LedgerExec.Proofs.State.Snapshot
set_option autoImplicit false

/-!
# The root of a tree of views

The layer of a view may mark an account as deleted, keep a zero word, or hide the storage
of an account below.  The root has nothing below it that such marks could hide, and holds
none: it is canonical (`Layer.Canonical`).  Each of the three ways to write to a root keeps
it so, and with them handing down a whole layer, whatever is marked there
(`canonical_absorb`).  A canonical layer is determined by what it shows (`Canonical.ext`).

A tree touches its root through the piles of the views that stand on it.  What is done to a
view leaves a pile of the same height with a canonical layer at the bottom
(`View.Grounded`), and only the bottom of a pile is ever written back to the root
(`planted_modify`).  So the root is canonical after any operations on any views of the tree.
-/

namespace LedgerExec

/-! ## Layers -/

namespace Layer

/-- Nothing is marked: every entry is an account, no word is zero, and no storage is hidden. -/
structure Canonical (l : Layer) : Prop where
  present : ∀ a : Address, l.accounts[a]? ≠ some none
  nonzero : ∀ s : Slot, l.storage[s]? ≠ some Octets.zero
  unhidden : l.wiped = ∅

variable {l m : Layer}

theorem canonical_empty : Canonical {} where
  present a := by simp
  nonzero s := by simp
  unhidden := rfl

/-! ### Writing to a root -/

theorem Canonical.setAccount (h : l.Canonical) (address : Address) (entry : Option Account) :
    (l.setAccount true address entry).Canonical := by
  cases entry with
  | none =>
      refine { h with present := fun a => ?_ }
      change (l.accounts.erase address)[a]? ≠ some none
      rw [Std.ExtTreeMap.getElem?_erase]
      split
      · exact (Option.some_ne_none _).symm
      · exact h.present a
  | some account =>
      refine { h with present := fun a => ?_ }
      change (l.accounts.insert address (some account))[a]? ≠ some none
      rw [Std.ExtTreeMap.getElem?_insert]
      split
      · exact fun hnone => nomatch Option.some.inj hnone
      · exact h.present a

theorem Canonical.setWord (h : l.Canonical) (slot : Slot) (value : Word) :
    (l.setWord true slot value).Canonical := by
  cases hzero : value.isZero with
  | true =>
      simp only [Layer.setWord, hzero, Bool.and_self, if_true]
      refine { h with nonzero := fun s => ?_ }
      rw [Std.ExtTreeMap.getElem?_erase]
      split
      · exact (Option.some_ne_none _).symm
      · exact h.nonzero s
  | false =>
      simp only [Layer.setWord, hzero, Bool.and_false, Bool.false_eq_true, if_false]
      refine { h with nonzero := fun s => ?_ }
      rw [Std.ExtTreeMap.getElem?_insert]
      split
      · intro hsame
        rw [Option.some.inj hsame] at hzero
        exact absurd hzero (by decide)
      · exact h.nonzero s

theorem Canonical.wipe (h : l.Canonical) (address : Address) : (l.wipe true address).Canonical where
  present := h.present
  nonzero s := by
    rw [storage_wipe]
    split
    · exact (Option.some_ne_none _).symm
    · exact h.nonzero s
  unhidden := h.unhidden

theorem Canonical.delete (h : l.Canonical) (address : Address) :
    (l.delete true address).Canonical :=
  (h.setAccount address none).wipe address

/-- A root takes over the writes of any layer without its marks. -/
theorem canonical_absorb (h : l.Canonical) (above : Layer) : (l.absorb true above).Canonical := by
  have hwiped : (above.wiped.toList.foldl (Layer.wipe true) l).Canonical :=
    List.foldlRecOn _ _ h fun _ hl address _ => hl.wipe address
  have haccounts : (above.accounts.toList.foldl (fun l entry => l.setAccount true entry.1 entry.2)
      (above.wiped.toList.foldl (Layer.wipe true) l)).Canonical :=
    List.foldlRecOn _ _ hwiped fun _ hl entry _ => hl.setAccount entry.1 entry.2
  exact List.foldlRecOn _ _ haccounts fun _ hl entry _ => hl.setWord entry.1 entry.2

/-! ### What a canonical root shows -/

/-- The entries of a canonical root are the accounts that it shows. -/
theorem Canonical.getElem?_accounts (h : l.Canonical) (a : Address) :
    l.accounts[a]? = (account? [l] a).map some := by
  have hpresent := h.present a
  cases hentry : l.accounts[a]? with
  | none => simp [account?, hentry]
  | some entry =>
      cases entry with
      | none => exact absurd hentry hpresent
      | some account => simp [account?, hentry]

/-- The words of a canonical root are those that it shows and that are not zero. -/
theorem Canonical.getElem?_storage (h : l.Canonical) (s : Slot) :
    l.storage[s]? = if word [l] s = Octets.zero then none else some (word [l] s) := by
  have hnonzero := h.nonzero s
  cases hentry : l.storage[s]? with
  | none => simp [word, hentry]
  | some value =>
      rw [hentry] at hnonzero
      have hvalue : value ≠ Octets.zero := fun hzero => hnonzero (by rw [hzero])
      simp [word, hentry, hvalue]

/-- The map of all accounts that a canonical root shows is its own. -/
theorem Canonical.accountsOf (h : l.Canonical) :
    (accountsOf [l]).map (fun _ account => some account) = l.accounts := by
  apply Std.ExtTreeMap.ext_getElem?
  intro a
  rw [Std.ExtTreeMap.getElem?_map, getElem?_accountsOf, h.getElem?_accounts a]

/-- Two canonical roots that show the same are the same. -/
theorem Canonical.ext (hl : l.Canonical) (hm : m.Canonical)
    (haccount : ∀ a, account? [l] a = account? [m] a) (hword : ∀ s, word [l] s = word [m] s) :
    l = m := by
  apply Layer.ext
  · apply Std.ExtTreeMap.ext_getElem?
    intro a
    rw [hl.getElem?_accounts, hm.getElem?_accounts, haccount]
  · apply Std.ExtTreeMap.ext_getElem?
    intro s
    rw [hl.getElem?_storage, hm.getElem?_storage, hword]
  · rw [hl.unhidden, hm.unhidden]

end Layer

/-! ## Piles -/

namespace View

variable {v : View}

/-- The layer at the bottom of the pile is canonical. -/
def Grounded (v : View) : Prop := ∀ l ∈ v.layers.getLast?, l.Canonical

theorem grounded_root {l : Layer} : (⟨l, []⟩ : View).Grounded ↔ l.Canonical := by
  simp [Grounded, layers]

/-- Below its top layer a pile is a pile. -/
theorem grounded_cons {top l : Layer} {rest : List Layer} :
    (⟨top, l :: rest⟩ : View).Grounded ↔ (⟨l, rest⟩ : View).Grounded := by
  simp only [Grounded, layers, List.getLast?_cons_cons]

/-- Writing to the top layer is writing to a root, or leaves the bottom alone. -/
theorem Grounded.top (h : v.Grounded) {f : Bool → Layer → Layer}
    (hroot : ∀ l : Layer, l.Canonical → (f true l).Canonical) :
    Grounded { v with top := f v.isRoot v.top } := by
  obtain ⟨top, below⟩ := v
  cases below with
  | nil => exact grounded_root.mpr (hroot top (grounded_root.mp h))
  | cons l rest => exact grounded_cons.mpr (grounded_cons.mp h)

theorem Grounded.put (h : v.Grounded) (address : Address) (account : Account) :
    (v.put address account).Grounded :=
  h.top (f := fun isRoot l => l.setAccount isRoot address (some account))
    fun _ hl => hl.setAccount address (some account)

theorem Grounded.delete (h : v.Grounded) (address : Address) : (v.delete address).Grounded :=
  h.top (f := fun isRoot l => l.delete isRoot address) fun _ hl => hl.delete address

theorem Grounded.store (h : v.Grounded) (address : Address) (key value : Word) :
    (v.store address key value).Grounded :=
  h.top (f := fun isRoot l => l.setWord isRoot ⟨address, key⟩ value)
    fun _ hl => hl.setWord ⟨address, key⟩ value

theorem Grounded.debit {w : View} {address : Address} {amount : Balance} (h : v.Grounded)
    (hdebit : v.debit address amount = .ok w) : w.Grounded := by
  obtain ⟨rest, -, rfl⟩ := debit_eq_ok_iff.mp hdebit
  exact h.put address _

/-- Every write comes down to writing whole accounts, words and deletions. -/
theorem Grounded.write (h : v.Grounded) (w : Write) : (v.write w).Grounded := by
  cases w with
  | put address account => exact h.put address account
  | delete address => exact h.delete address
  | store address key value => exact h.store address key value
  | create address => exact (h.delete address).put address _
  | credit address | raiseNonce address | saveCode address | setUpContract address =>
      exact h.put address _
  | debit address amount =>
      simp only [View.write]
      cases hdebit : v.debit address amount with
      | error fault => exact h
      | ok u => exact h.debit hdebit
  | transfer source target amount =>
      simp only [View.write]
      cases htransfer : v.transfer source target amount with
      | error fault => exact h
      | ok u =>
          obtain ⟨w, hdebit, rfl⟩ := transfer_eq_ok_iff.mp htransfer
          exact (h.debit hdebit).put target _

theorem Grounded.commit (h : v.Grounded) : v.commit.Grounded := by
  obtain ⟨top, below⟩ := v
  cases below with
  | nil => exact h
  | cons l rest =>
      have hbelow := grounded_cons.mp h
      cases rest with
      | nil =>
          have hl := grounded_root.mp hbelow
          exact grounded_cons.mpr (grounded_root.mpr (Layer.canonical_absorb hl top))
      | cons l' rest => exact grounded_cons.mpr (grounded_cons.mpr (grounded_cons.mp hbelow))

theorem Grounded.rollback (h : v.Grounded) : v.rollback.Grounded := by
  obtain ⟨top, below⟩ := v
  cases below with
  | nil => exact h
  | cons l rest => exact grounded_cons.mpr (grounded_cons.mp h)

theorem length_below_commit (v : View) : v.commit.below.length = v.below.length := by
  obtain ⟨top, below⟩ := v
  cases below <;> rfl

theorem length_below_rollback (v : View) : v.rollback.below.length = v.below.length := by
  obtain ⟨top, below⟩ := v
  cases below <;> rfl

end View

/-! ## Trees -/

/-- What can be done in a tree of views, each of them named by its number. -/
inductive TreeOp where
  | write (view : Nat) (w : Write)
  /-- starts a view on another -/
  | track (view : Nat)
  | commit (view : Nat)
  | rollback (view : Nat)
  deriving DecidableEq, Repr, Inhabited

namespace ViewTree

/-- One operation. -/
def apply (t : ViewTree) : TreeOp → ViewTree
  | .write view w => t.modify view (·.write w)
  | .track view => t.track view
  | .commit view => t.modify view View.commit
  | .rollback view => t.modify view View.rollback

/-- What operations one after the other make of a new root. -/
def grown (ops : List TreeOp) : ViewTree := ops.foldl apply (ofRoot View.root)

/-- The layer of a view by its number. -/
def layerAt (t : ViewTree) (number : Nat) : Layer :=
  ((t.nodes[number]?).map (·.layer)).getD {}

/-- The layer of the root. -/
def rootLayer (t : ViewTree) : Layer := t.layerAt 0

/-- View 0 stands on nothing and is canonical, and every other view stands on some view. -/
structure Planted (t : ViewTree) : Prop where
  root : ∃ l : Layer, t.nodes[0]? = some ⟨none, l⟩ ∧ l.Canonical
  stands : ∀ number l, t.nodes[number]? = some ⟨none, l⟩ → number = 0

variable {t : ViewTree}

theorem planted_ofRoot : (ofRoot View.root).Planted where
  root := ⟨{}, rfl, Layer.canonical_empty⟩
  stands number l h := by
    cases number with
    | zero => rfl
    | succ number => exact nomatch h

theorem Planted.track (h : t.Planted) (number : Nat) : (t.track number).Planted := by
  obtain ⟨l, hroot, hl⟩ := h.root
  have hsome : 0 < t.nodes.length := (List.getElem?_eq_some_iff.mp hroot).1
  refine ⟨⟨l, ?_, hl⟩, fun n m hnode => ?_⟩
  · rw [ViewTree.track, List.getElem?_append_left hsome]
    exact hroot
  · rcases Nat.lt_or_ge n t.nodes.length with hold | hnew
    · rw [ViewTree.track, List.getElem?_append_left hold] at hnode
      exact h.stands n m hnode
    · rw [ViewTree.track, List.getElem?_append_right hnew] at hnode
      have hlast := List.mem_of_getElem? hnode
      simp at hlast

/-- Writing the layers of views other than the root leaves the root alone. -/
theorem Planted.setLayer (h : t.Planted) {number : Nat} (layer : Layer)
    (hlayer : number = 0 → layer.Canonical) : (t.setLayer number layer).Planted := by
  have hnode (n : Nat) : (t.setLayer number layer).nodes[n]? =
      (t.nodes[n]?).map fun node => if number = n then { node with layer } else node := by
    rw [ViewTree.setLayer, List.getElem?_modify]
    rfl
  obtain ⟨l, hroot, hl⟩ := h.root
  refine ⟨?_, fun n m hn => ?_⟩
  · rw [hnode, hroot, Option.map_some]
    by_cases hzero : number = 0
    · rw [if_pos hzero]
      exact ⟨layer, rfl, hlayer hzero⟩
    · rw [if_neg hzero]
      exact ⟨l, rfl, hl⟩
  · rw [hnode] at hn
    obtain ⟨⟨parent, old⟩, hold, hset⟩ := Option.map_eq_some_iff.mp hn
    have hparent : parent = none := by
      split at hset <;> exact congrArg ViewNode.parent hset
    subst hparent
    exact h.stands n old hold

/-- Only the last view of a line of ancestors can be the root, and it is if the line ends. -/
theorem line_cases (h : t.Planted) (fuel number : Nat) :
    ∃ numbers, 0 ∉ numbers ∧
      (t.line fuel number = numbers ∨ t.line fuel number = numbers ++ [0]) := by
  induction fuel, number using ViewTree.line.induct t with
  | case1 => exact ⟨[], List.not_mem_nil, .inl rfl⟩
  | case2 fuel number hmissing =>
      exact ⟨[], List.not_mem_nil, .inl (by simp only [line, hmissing])⟩
  | case3 fuel number node hnode hparent =>
      obtain ⟨parent, layer⟩ := node
      subst hparent
      obtain rfl := h.stands number layer hnode
      exact ⟨[], List.not_mem_nil, .inr (by simp only [line, hnode]; rfl)⟩
  | case4 fuel number node hnode parent hparent ih =>
      obtain ⟨numbers, hother, hline⟩ := ih
      have hcons : t.line (fuel + 1) number = number :: t.line fuel parent := by
        simp only [line, hnode, hparent]
      have hnumber : number ≠ 0 := by
        rintro rfl
        obtain ⟨l, hroot, -⟩ := h.root
        obtain rfl := Option.some.inj (hroot.symm.trans hnode)
        exact nomatch hparent
      refine ⟨number :: numbers, ?_, ?_⟩
      · exact fun hmem => (List.mem_cons.mp hmem).elim (hnumber ·.symm) hother
      · rw [hcons]
        rcases hline with hline | hline
        · exact .inl (by rw [hline])
        · exact .inr (by rw [hline, List.cons_append])

theorem exists_node_of_mem_line {fuel number n : Nat} (hmem : n ∈ t.line fuel number) :
    ∃ node, t.nodes[n]? = some node := by
  induction fuel, number using ViewTree.line.induct t with
  | case1 => exact nomatch hmem
  | case2 fuel number hmissing => simp [line, hmissing] at hmem
  | case3 fuel number node hnode hparent =>
      simp only [line, hnode, hparent, List.mem_singleton] at hmem
      exact ⟨node, hmem ▸ hnode⟩
  | case4 fuel number node hnode parent hparent ih =>
      simp only [line, hnode, hparent, List.mem_cons] at hmem
      rcases hmem with rfl | habove
      · exact ⟨node, hnode⟩
      · exact ih habove

/-- The pile of a view is made of the layers of its line of ancestors. -/
theorem layers_view (t : ViewTree) (number : Nat) (hthere : t.ancestry number ≠ []) :
    (t.view number).layers = (t.ancestry number).map t.layerAt := by
  have hlayers : ((t.ancestry number).filterMap fun n => (t.nodes[n]?).map (·.layer)) =
      (t.ancestry number).map t.layerAt := by
    rw [List.filterMap_eq_map_iff_forall_eq_some]
    intro n hn
    obtain ⟨node, hnode⟩ := exists_node_of_mem_line hn
    rw [layerAt, hnode]
    rfl
  rw [view, hlayers]
  cases hancestry : t.ancestry number with
  | nil => exact absurd hancestry hthere
  | cons n rest => rfl

/-- The view of the root has nothing below it. -/
theorem view_zero (h : t.Planted) : t.view 0 = ⟨t.rootLayer, []⟩ := by
  obtain ⟨l, hroot, -⟩ := h.root
  have hline : t.ancestry 0 = [0] := by
    obtain ⟨n, hlength⟩ := Nat.exists_eq_succ_of_ne_zero
      (Nat.ne_of_gt (List.getElem?_eq_some_iff.mp hroot).1)
    rw [ancestry, hlength]
    simp only [line, hroot]
  have hlayers := t.layers_view 0 (by rw [hline]; exact List.cons_ne_nil _ _)
  rw [hline] at hlayers
  obtain ⟨htop, hbelow⟩ := List.cons.inj hlayers
  exact View.ext htop hbelow

theorem Planted.rootLayer (h : t.Planted) : t.rootLayer.Canonical := by
  obtain ⟨l, hroot, hl⟩ := h.root
  have hlayer : t.rootLayer = l := by
    rw [ViewTree.rootLayer, layerAt, hroot]
    rfl
  rw [hlayer]
  exact hl

/-- A pile that reaches down to the root has its layer at the bottom. -/
theorem Planted.grounded (h : t.Planted) {number : Nat} {numbers : List Nat}
    (hline : t.ancestry number = numbers ++ [0]) : (t.view number).Grounded := by
  have hlayers := t.layers_view number (by simp [hline])
  intro l hl
  rw [hlayers, hline, List.map_append, List.map_singleton, List.getLast?_concat] at hl
  rw [← Option.some.inj hl]
  exact h.rootLayer

/-- Writing back the layers of views other than the root. -/
theorem Planted.writeBack (h : t.Planted) {entries : List (Nat × Layer)}
    (hother : ∀ entry ∈ entries, entry.1 ≠ 0) :
    (entries.foldl (fun t (number, layer) => t.setLayer number layer) t).Planted :=
  List.foldlRecOn _ _ h fun _ ht entry hentry =>
    ht.setLayer entry.2 fun hzero => absurd hzero (hother entry hentry)

/-- What is done to a view reaches the root by the bottom of its pile. -/
theorem planted_modify (h : t.Planted) (number : Nat) {f : View → View}
    (hheight : ∀ v, (f v).below.length = v.below.length)
    (hground : ∀ v : View, v.Grounded → (f v).Grounded) : (t.modify number f).Planted := by
  obtain ⟨numbers, hother, hline⟩ := line_cases h t.nodes.length number
  change t.ancestry number = numbers ∨ t.ancestry number = numbers ++ [0] at hline
  have hnonzero {layers : List Layer} : ∀ entry ∈ numbers.zip layers, entry.1 ≠ 0 :=
    fun entry hentry hzero => hother (hzero ▸ (List.of_mem_zip hentry).1)
  rw [modify]
  rcases hline with hline | hline
  · -- the line ends before it comes to the root, and so does what is written back
    rw [hline]
    exact h.writeBack hnonzero
  · obtain ⟨upper, bottom, hpile⟩ :=
      (List.eq_nil_or_concat (f (t.view number)).layers).resolve_left (List.cons_ne_nil _ _)
    rw [List.concat_eq_append] at hpile
    have hbottom : bottom.Canonical := by
      refine hground _ (h.grounded hline) bottom ?_
      rw [hpile, List.getLast?_concat]
      rfl
    have hlength : numbers.length = upper.length := by
      have hlayers := congrArg List.length (t.layers_view number (by simp [hline]))
      have hpileLength := congrArg List.length hpile
      have hsame := hheight (t.view number)
      simp only [View.layers, hline, List.length_cons, List.length_map, List.length_append,
        List.length_nil] at hlayers hpileLength
      omega
    rw [hline, hpile, List.zip_append hlength, List.foldl_append]
    exact (h.writeBack hnonzero).setLayer bottom fun _ => hbottom

theorem Planted.apply (h : t.Planted) (op : TreeOp) : (t.apply op).Planted := by
  cases op with
  | write view w =>
      exact planted_modify h view (fun v => by rw [View.below_write]) fun v hv => hv.write w
  | track view => exact h.track view
  | commit view => exact planted_modify h view View.length_below_commit fun v hv => hv.commit
  | rollback view =>
      exact planted_modify h view View.length_below_rollback fun v hv => hv.rollback

theorem planted_grown (ops : List TreeOp) : (grown ops).Planted :=
  List.foldlRecOn ops apply planted_ofRoot fun _ ht op _ => ht.apply op

/-- Whatever is done to the views of a tree that stands on a new root, the root holds no account
that is marked as deleted, no zero word and no mark that storage is hidden.  Its entries are the
accounts that it shows, and two such roots are the same exactly if they show the same. -/
theorem canonical_roots (ops ops' : List TreeOp) :
    (grown ops).rootLayer.Canonical ∧ (grown ops).view 0 = ⟨(grown ops).rootLayer, []⟩ ∧
      ((grown ops).view 0).accounts.map (fun _ account => some account) =
        (grown ops).rootLayer.accounts ∧
      (((grown ops).view 0).shown = ((grown ops').view 0).shown ↔
        (grown ops).rootLayer = (grown ops').rootLayer) := by
  have hplanted := planted_grown ops
  have hplanted' := planted_grown ops'
  have hview := view_zero hplanted
  have hview' := view_zero hplanted'
  refine ⟨hplanted.rootLayer, hview, ?_, ?_⟩
  · rw [hview]
    exact hplanted.rootLayer.accountsOf
  · rw [hview, hview']
    constructor
    · intro hshown
      refine hplanted.rootLayer.ext hplanted'.rootLayer (fun a => ?_) fun s => ?_
      · exact (View.account?_shown _ a).symm.trans
          ((congrArg (·.account? a) hshown).trans (View.account?_shown _ a))
      · exact congrFun (congrFun (congrArg Snapshot.word hshown) s.address) s.key
    · intro hsame
      rw [hsame]

/-- The marks of two children of the root: what they leave is no account and no word. -/
example :
    (grown
      [.write 0 (.credit (Octets.ofNat .address 5) 7), .track 0, .track 0,
        .write 1 (.store (Octets.ofNat .address 5) Octets.zero (Octets.ofNat .word 9)),
        .write 2 (.delete (Octets.ofNat .address 5)),
        .write 2 (.store (Octets.ofNat .address 5) Octets.zero Octets.zero),
        .commit 1, .commit 2]).rootLayer = {} := by
  decide +kernel

end ViewTree

end LedgerExec
