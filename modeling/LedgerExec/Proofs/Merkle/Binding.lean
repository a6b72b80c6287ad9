import LedgerExec.BlockExecution
import LedgerExec.Proofs.Wire.Consensus
set_option autoImplicit false

/-!
# What a Merkle root binds

Two lists with one root are the same list, as long as hashing tells apart the byte strings
that are hashed on the way (`Digest.Separates`).  Leaves and inner nodes are hashed alike
and a lone digest moves up as it is, so nothing in a root says how long its list was.  What
tells a leaf from an inner node is its length: an inner node is made from 64 bytes, and no
entry of the lists that are committed to has this length.

A root over entries is the digest of a `Tree` with these entries as leaves
(`exists_tree_of_root`), and trees with one digest are the same tree (`Tree.eq_of_digest`),
by induction over both at once.
-/

namespace LedgerExec

/-- Different messages of a list have different digests, and none has the zero digest. -/
structure Digest.Separates (messages : List Bytes) : Prop where
  inj : ∀ s ∈ messages, ∀ t ∈ messages, Digest.ofMessage s = Digest.ofMessage t → s = t
  ne_zero : ∀ s ∈ messages, Digest.ofMessage s ≠ Octets.zero

instance (messages : List Bytes) : Decidable (Digest.Separates messages) :=
  decidable_of_iff
    ((∀ s ∈ messages, ∀ t ∈ messages, Digest.ofMessage s = Digest.ofMessage t → s = t) ∧
      ∀ s ∈ messages, Digest.ofMessage s ≠ Octets.zero)
    ⟨fun h => ⟨h.1, h.2⟩, fun h => ⟨h.inj, h.ne_zero⟩⟩

theorem Digest.Separates.mono {part all : List Bytes} (h : Digest.Separates all)
    (hpart : part ⊆ all) : Digest.Separates part where
  inj s hs t ht := h.inj s (hpart hs) t (hpart ht)
  ne_zero s hs := h.ne_zero s (hpart hs)

namespace Merkle

/-- The byte strings that are hashed to make the level above a level. -/
def pairs : List Digest → List Bytes
  | left :: right :: rest => (left.toBytes ++ right.toBytes) :: pairs rest
  | _ => []

/-- A level is made of the digests of the pairs below it, and of the last digest if it has none to
go with. -/
theorem nextLevel_eq_map_pairs : ∀ level : List Digest,
    nextLevel level =
      (pairs level).map Digest.ofMessage ++ level.drop (2 * (pairs level).length)
  | [] => rfl
  | [_] => rfl
  | left :: right :: rest => by
    rw [nextLevel, pairs, List.map_cons, List.cons_append, List.length_cons, Nat.mul_succ,
      List.drop_succ_cons, List.drop_succ_cons, ← nextLevel_eq_map_pairs rest]
    rfl

/-- The byte strings that are hashed above a level, in at most `fuel` further levels. -/
def hashedAbove : Nat → List Digest → List Bytes
  | 0, _ => []
  | fuel + 1, level => pairs level ++ hashedAbove fuel (nextLevel level)

/-- The byte strings that are hashed for the root over a list of entries. -/
def hashed (entries : List Bytes) : List Bytes :=
  entries ++ hashedAbove entries.length (entries.map Digest.ofMessage)

/-! ## Trees -/

/-- How a digest was made: from an entry, or from two digests. -/
inductive Tree where
  | leaf (entry : Bytes)
  | node (left right : Tree)

namespace Tree

/-- The byte string whose digest stands at the top. -/
def message : Tree → Bytes
  | leaf entry => entry
  | node left right =>
    (Digest.ofMessage left.message).toBytes ++ (Digest.ofMessage right.message).toBytes

/-- The digest at the top. -/
def digest (t : Tree) : Digest := Digest.ofMessage t.message

/-- The entries, from left to right. -/
def leaves : Tree → List Bytes
  | leaf entry => [entry]
  | node left right => left.leaves ++ right.leaves

/-- Every byte string that is hashed for the tree. -/
def messages : Tree → List Bytes
  | leaf entry => [entry]
  | node left right => (node left right).message :: (left.messages ++ right.messages)

theorem message_mem_messages (t : Tree) : t.message ∈ t.messages := by
  cases t <;> exact List.mem_cons_self

theorem length_message_node (left right : Tree) : (node left right).message.length = 64 := by
  rw [message, List.length_append, Octets.length_toBytes, Octets.length_toBytes]
  rfl

theorem digests_of_message_eq {left right left' right' : Tree}
    (hmessage : (node left right).message = (node left' right').message) :
    left.digest = left'.digest ∧ right.digest = right'.digest := by
  obtain ⟨hleft, hright⟩ := List.append_inj hmessage (by simp)
  exact ⟨Octets.toBytes_inj.mp hleft, Octets.toBytes_inj.mp hright⟩

/-- Trees with one digest are the same tree, if no entry could be taken for an inner node. -/
theorem eq_of_digest {all : List Bytes} (hseparates : Digest.Separates all) {s t : Tree}
    (hs : s.messages ⊆ all) (ht : t.messages ⊆ all) (hsize : ∀ entry ∈ s.leaves, entry.length ≠ 64)
    (htsize : ∀ entry ∈ t.leaves, entry.length ≠ 64) (hdigest : s.digest = t.digest) : s = t := by
  have hmessage (s t : Tree) (hs : s.messages ⊆ all) (ht : t.messages ⊆ all)
      (hdigest : s.digest = t.digest) : s.message = t.message :=
    hseparates.inj _ (hs s.message_mem_messages) _ (ht t.message_mem_messages) hdigest
  induction s generalizing t with
  | leaf entry =>
      have hsame := hmessage _ _ hs ht hdigest
      cases t with
      | leaf other => exact congrArg leaf hsame
      | node left right =>
          refine absurd ?_ (hsize entry List.mem_cons_self)
          rw [← length_message_node left right, ← hsame]
          rfl
  | node left right ihleft ihright =>
      have hsame := hmessage _ _ hs ht hdigest
      cases t with
      | leaf other =>
          refine absurd ?_ (htsize other List.mem_cons_self)
          rw [← length_message_node left right, hsame]
          rfl
      | node left' right' =>
          obtain ⟨hleft, hright⟩ := digests_of_message_eq hsame
          simp only [messages, List.cons_subset, List.append_subset] at hs ht
          simp only [leaves, List.forall_mem_append] at hsize htsize
          rw [ihleft hs.2.1 ht.2.1 hsize.1 htsize.1 hleft,
            ihright hs.2.2 ht.2.2 hsize.2 htsize.2 hright]

/-- The level above a level of trees. -/
def nextLevel : List Tree → List Tree
  | left :: right :: rest => node left right :: nextLevel rest
  | lone => lone

theorem map_digest_nextLevel : ∀ level : List Tree,
    (nextLevel level).map digest = Merkle.nextLevel (level.map digest)
  | [] => rfl
  | [_] => rfl
  | _ :: _ :: rest => congrArg _ (map_digest_nextLevel rest)

theorem leaves_nextLevel : ∀ level : List Tree,
    (nextLevel level).flatMap leaves = level.flatMap leaves
  | [] => rfl
  | [_] => rfl
  | left :: right :: rest => by
    simp only [nextLevel, List.flatMap_cons, leaves, leaves_nextLevel rest, List.append_assoc]

theorem length_nextLevel (level : List Tree) :
    (nextLevel level).length = (level.length + 1) / 2 := by
  rw [← List.length_map digest, map_digest_nextLevel, Merkle.length_nextLevel, List.length_map]

/-- A level hashes what the one below it has hashed, and its pairs. -/
theorem messages_nextLevel : ∀ level : List Tree,
    (nextLevel level).flatMap messages ⊆ level.flatMap messages ++ pairs (level.map digest)
  | [] => fun _ h => h
  | [_] => fun _ h => List.mem_append_left _ h
  | left :: right :: rest => by
    have hrest := messages_nextLevel rest
    intro message hmessage
    simp only [nextLevel, List.flatMap_cons, messages, List.cons_append, List.mem_cons,
      List.mem_append, List.append_assoc, List.map_cons, pairs] at hmessage ⊢
    rcases hmessage with htop | hleft | hright | hmember
    · exact .inr (.inr (.inr (.inl htop)))
    · exact .inl hleft
    · exact .inr (.inl hright)
    · rcases List.mem_append.mp (hrest hmember) with hbelow | hpair
      · exact .inr (.inr (.inl hbelow))
      · exact .inr (.inr (.inr (.inr hpair)))

/-- Levels are put on top of each other until one tree is left. -/
theorem exists_tree_of_level (fuel : Nat) {level : List Tree} (hlevel : level ≠ [])
    (hfuel : level.length ≤ fuel + 1) :
    ∃ t : Tree, t.digest = collapse fuel (level.map digest) ∧ t.leaves = level.flatMap leaves ∧
      t.messages ⊆ level.flatMap messages ++ hashedAbove fuel (level.map digest) := by
  induction fuel generalizing level with
  | zero =>
      obtain ⟨only, rfl⟩ : ∃ only, level = [only] :=
        List.length_eq_one_iff.mp
          (Nat.le_antisymm hfuel (List.length_pos_iff.mpr hlevel))
      exact ⟨only, rfl, by simp, by simp⟩
  | succ fuel ih =>
      match level, hlevel with
      | [only], _ => exact ⟨only, rfl, by simp, by simp⟩
      | left :: right :: rest, _ =>
          have hnext : nextLevel (left :: right :: rest) ≠ [] := List.cons_ne_nil _ _
          have hshorter : (nextLevel (left :: right :: rest)).length ≤ fuel + 1 := by
            rw [length_nextLevel]
            omega
          obtain ⟨t, hdigest, hleaves, hmessages⟩ := ih hnext hshorter
          rw [map_digest_nextLevel] at hdigest hmessages
          refine ⟨t, hdigest, hleaves.trans (leaves_nextLevel _), List.Subset.trans hmessages ?_⟩
          rw [hashedAbove, ← List.append_assoc]
          exact List.append_subset.mpr
            ⟨List.Subset.trans (messages_nextLevel _) (List.subset_append_left _ _),
              List.subset_append_right _ _⟩

end Tree

/-! ## Roots -/

/-- The root over entries is the digest of a tree with these leaves. -/
theorem exists_tree_of_root {entries : List Bytes} (hentries : entries ≠ []) :
    ∃ t : Tree, t.digest = root entries ∧ t.leaves = entries ∧ t.messages ⊆ hashed entries := by
  have hleaves : (entries.map Tree.leaf).flatMap Tree.leaves = entries := by
    rw [List.flatMap_map]
    exact List.flatMap_singleton' entries
  have hmessages : (entries.map Tree.leaf).flatMap Tree.messages = entries := by
    rw [List.flatMap_map]
    exact List.flatMap_singleton' entries
  have hdigests : (entries.map Tree.leaf).map Tree.digest = entries.map Digest.ofMessage := by
    rw [List.map_map]
    rfl
  have hlevel : entries.map Tree.leaf ≠ [] := by simpa using hentries
  have htree := Tree.exists_tree_of_level entries.length hlevel (by simp)
  rwa [hleaves, hmessages, hdigests] at htree

/-- No root over entries is that of the empty list. -/
theorem root_ne_zero {entries : List Bytes} (hseparates : Digest.Separates (hashed entries))
    (hentries : entries ≠ []) : root entries ≠ Octets.zero := by
  obtain ⟨t, hdigest, -, hmessages⟩ := exists_tree_of_root hentries
  rw [← hdigest]
  exact hseparates.ne_zero _ (hmessages t.message_mem_messages)

/-- A root stands for one list of entries, none of which has the length of an inner node. -/
theorem root_eq_iff {xs ys : List Bytes}
    (hseparates : Digest.Separates (hashed xs ++ hashed ys))
    (hxs : ∀ entry ∈ xs, entry.length ≠ 64) (hys : ∀ entry ∈ ys, entry.length ≠ 64) :
    root xs = root ys ↔ xs = ys := by
  refine ⟨fun hroot => ?_, congrArg root⟩
  have hfirst := hseparates.mono (List.subset_append_left (hashed xs) (hashed ys))
  have hsecond := hseparates.mono (List.subset_append_right (hashed xs) (hashed ys))
  by_cases hempty : xs = []
  · by_cases hother : ys = []
    · rw [hempty, hother]
    · rw [hempty] at hroot
      exact absurd hroot.symm (root_ne_zero hsecond hother)
  · by_cases hother : ys = []
    · rw [hother] at hroot
      exact absurd hroot (root_ne_zero hfirst hempty)
    · obtain ⟨s, hs, hsleaves, hsmessages⟩ := exists_tree_of_root hempty
      obtain ⟨t, ht, htleaves, htmessages⟩ := exists_tree_of_root hother
      have htrees : s = t := Tree.eq_of_digest hseparates
        (List.Subset.trans hsmessages (List.subset_append_left _ _))
        (List.Subset.trans htmessages (List.subset_append_right _ _))
        (by rwa [hsleaves]) (by rwa [htleaves]) (by rw [hs, ht, hroot])
      rw [← hsleaves, ← htleaves, htrees]

end Merkle

/-- The bytes of a receipt are more than those of an inner node. -/
theorem Receipt.lt_length_encode (r : Receipt) : 64 < (Wire.encode r).length := by
  have hstatus : r.status.layout.length = 4 := by cases r.status <;> rfl
  have hhash : OctetKind.digest.size = 32 := rfl
  simp only [r.encode_eq_layout, layout, List.length_append, Octets.length_toBytes,
    Bytes.length_littleEndian, hstatus, hhash]
  omega

/-- The byte strings that are hashed for the root over receipts. -/
def receiptMessages (receipts : List Receipt) : List Bytes :=
  Merkle.hashed (receipts.map Wire.encode)

/-- The byte strings that are hashed for the root over the digests of transactions. -/
def transactionMessages (transactions : List Transaction) : List Bytes :=
  Merkle.hashed (transactions.map fun t => t.hash.toBytes)

theorem receiptsRoot_eq_iff {rs ss : List Receipt} (hrs : ∀ r ∈ rs, r.Fits)
    (hss : ∀ s ∈ ss, s.Fits)
    (hseparates : Digest.Separates (receiptMessages rs ++ receiptMessages ss)) :
    BlockExecutor.receiptsRoot rs = BlockExecutor.receiptsRoot ss ↔ rs = ss := by
  have hsize (receipts : List Receipt) :
      ∀ entry ∈ receipts.map Wire.encode, entry.length ≠ 64 :=
    List.forall_mem_map.mpr fun r _ => Nat.ne_of_gt r.lt_length_encode
  have hreads {receipts : List Receipt} (hfits : ∀ r ∈ receipts, r.Fits) :
      (receipts.map Wire.encode).map Wire.decodeFront? = receipts.map some := by
    rw [List.map_map]
    refine List.map_congr_left fun r hr => ?_
    simpa using (hfits r hr).readsBack.decodeFront? []
  refine (Merkle.root_eq_iff hseparates (hsize rs) (hsize ss)).trans ⟨fun hbytes => ?_, ?_⟩
  · rw [← List.map_inj_right fun _ _ => Option.some.inj, ← hreads hrs, ← hreads hss, hbytes]
  · exact congrArg _

theorem transactionsRoot_eq_iff {b c : Block}
    (hseparates : Digest.Separates
      (transactionMessages b.transactions ++ transactionMessages c.transactions)) :
    b.transactionsRoot = c.transactionsRoot ↔
      b.transactions.map (·.hash) = c.transactions.map (·.hash) := by
  have hsize (transactions : List Transaction) :
      ∀ entry ∈ transactions.map fun t => t.hash.toBytes, entry.length ≠ 64 := by
    refine List.forall_mem_map.mpr fun t _ => ?_
    rw [Octets.length_toBytes]
    decide
  have hbytes (transactions : List Transaction) : (transactions.map fun t => t.hash.toBytes) =
      (transactions.map (·.hash)).map Octets.toBytes := by
    rw [List.map_map]
    rfl
  refine (Merkle.root_eq_iff hseparates (hsize _) (hsize _)).trans ?_
  rw [hbytes, hbytes, List.map_inj_right fun _ _ => Octets.toBytes_inj.mp]

/-- Where hashing tells apart what is hashed, receipts have one root exactly if they are the same
in the same order, and transactions exactly if their digests are. -/
theorem roots_bind :
    (∀ rs ss : List Receipt, (∀ r ∈ rs, r.Fits) → (∀ s ∈ ss, s.Fits) →
        Digest.Separates (receiptMessages rs ++ receiptMessages ss) →
        (BlockExecutor.receiptsRoot rs = BlockExecutor.receiptsRoot ss ↔ rs = ss)) ∧
      ∀ b c : Block,
        Digest.Separates
          (transactionMessages b.transactions ++ transactionMessages c.transactions) →
        (b.transactionsRoot = c.transactionsRoot ↔
          b.transactions.map (·.hash) = c.transactions.map (·.hash)) :=
  ⟨fun _ _ hrs hss hseparates => receiptsRoot_eq_iff hrs hss hseparates,
    fun _ _ hseparates => transactionsRoot_eq_iff hseparates⟩

/-- A receipt without logs. -/
def Receipt.silent (gasUsed : Gas) : Receipt where
  transaction := Octets.zero
  cumulativeGas := gasUsed
  gasUsed
  rentGasUsed := 0
  status := .success
  logs := []

/-- The root of three receipts is not that of the first two, and the root of two transactions not
that of the same in the other order. -/
theorem roots_bind_prefix :
    let three := [Receipt.silent 1, Receipt.silent 2, Receipt.logged]
    let turned := { Block.mixed with transactions := Block.mixed.transactions.reverse }
    BlockExecutor.receiptsRoot three ≠ BlockExecutor.receiptsRoot (three.take 2) ∧
      Block.mixed.transactionsRoot ≠ turned.transactionsRoot := by
  intro three turned
  have hfits : (∀ r ∈ three, r.Fits) ∧ ∀ r ∈ three.take 2, r.Fits := by decide
  have hseparates :
      Digest.Separates (receiptMessages three ++ receiptMessages (three.take 2)) ∧
        Digest.Separates (transactionMessages Block.mixed.transactions ++
          transactionMessages turned.transactions) ∧
        Block.mixed.transactions.map (·.hash) ≠ turned.transactions.map (·.hash) := by
    decide +kernel
  obtain ⟨hreceipts, htransactions, hother⟩ := hseparates
  exact ⟨fun hroot => absurd ((roots_bind.1 _ _ hfits.1 hfits.2 hreceipts).mp hroot) (by decide),
    fun hroot => hother ((roots_bind.2 _ _ htransactions).mp hroot)⟩

end LedgerExec
