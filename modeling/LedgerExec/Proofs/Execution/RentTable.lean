import LedgerExec.Execution.Run
set_option autoImplicit false

/-!
# The rent table

Recording an account puts the length of its node into the rent table, and for a contract
those of its code and of its storage root as well.  An entry stands under the digest of a
message, which is a tag for the kind of the node and then the address.  An address has a
fixed length, so a message tells both apart (`NodeKind.message_inj`), whatever the lengths of
the tags are: as long as no two of the messages have one digest, no entry takes the place of
another (`Execution.newNodes_recordAll`).
-/

namespace LedgerExec

/-- Two different messages of a list have one digest. -/
def Digest.Collide (messages : List Bytes) : Prop :=
  ∃ s ∈ messages, ∃ t ∈ messages, s ≠ t ∧ Digest.ofMessage s = Digest.ofMessage t

instance (messages : List Bytes) : Decidable (Digest.Collide messages) :=
  inferInstanceAs (Decidable (∃ s ∈ messages, ∃ t ∈ messages, _))

theorem Digest.Collide.mono {part all : List Bytes} (h : Digest.Collide part)
    (hpart : part ⊆ all) : Digest.Collide all := by
  obtain ⟨s, hs, t, ht, hcollide⟩ := h
  exact ⟨s, hpart hs, t, hpart ht, hcollide⟩

/-! ## The names of nodes -/

/-- What a node of an account holds. -/
inductive NodeKind where
  | account
  | code
  | storageRoot
  deriving DecidableEq, Repr

namespace NodeKind

/-- What is hashed before the address. -/
def tag : NodeKind → Bytes
  | .account => Bytes.ofText "account:"
  | .code => Bytes.ofText "code:"
  | .storageRoot => Bytes.ofText "storage:"

/-- The message that is hashed for the key of a node. -/
def message (kind : NodeKind) (address : Address) : Bytes := kind.tag ++ address.toBytes

/-- The key of a node. -/
def key (kind : NodeKind) (address : Address) : Word :=
  (Digest.ofMessage (kind.message address)).toWord

theorem tag_inj {kind other : NodeKind} (htag : kind.tag = other.tag) : kind = other := by
  have htags : ∀ s ∈ [account, code, storageRoot], ∀ t ∈ [account, code, storageRoot],
      s.tag = t.tag → s = t := by decide
  have hall : ∀ s : NodeKind, s ∈ [account, code, storageRoot] := by
    intro s
    cases s <;> decide
  exact htags kind (hall kind) other (hall other) htag

/-- A message belongs to one node. -/
theorem message_inj {kind other : NodeKind} {a b : Address}
    (hmessage : kind.message a = other.message b) : kind = other ∧ a = b := by
  obtain ⟨htag, hbytes⟩ := List.append_inj' hmessage (by simp)
  exact ⟨tag_inj htag, Octets.toBytes_inj.mp hbytes⟩

theorem key_eq_iff {kind other : NodeKind} {a b : Address} :
    kind.key a = other.key b ↔
      Digest.ofMessage (kind.message a) = Digest.ofMessage (other.message b) := by
  refine ⟨fun hkey => ?_, congrArg Digest.toWord⟩
  have hnumber : (Digest.ofMessage (kind.message a)).number =
      (Digest.ofMessage (other.message b)).number := congrArg (fun w : Word => w.number) hkey
  exact Octets.ext hnumber

theorem tagged_toWord (kind : NodeKind) (address : Address) :
    (Digest.tagged kind.tag [address.toBytes]).toWord = kind.key address := by
  rw [Digest.tagged, List.flatten_singleton]
  rfl

end NodeKind

namespace View

/-- The kinds of the nodes that the account at an address occupies. -/
def nodeKinds (v : View) (address : Address) : List NodeKind :=
  if v.hasContract address then [.account, .code, .storageRoot] else [.account]

/-- The length of a node as rent is charged for it. -/
def nodeLength (v : View) (address : Address) : NodeKind → Nat
  | .account => if v.hasAccount address then 25 else 0
  | .code => min ((v.code? address).getD []).length ((1 <<< 24) - 1)
  | .storageRoot => if ((v.account? address).bind (·.storageRoot)).isSome then 1 else 0

/-- The messages that are hashed for the keys of the nodes of addresses. -/
def nodeMessages (v : View) (addresses : List Address) : List Bytes :=
  addresses.flatMap fun a => (v.nodeKinds a).map fun kind => kind.message a

variable (v : View)

theorem nodeLength_le (address : Address) (kind : NodeKind) :
    v.nodeLength address kind ≤ NodeLength.greatest := by
  unfold NodeLength.greatest
  cases kind with
  | account =>
      simp only [nodeLength]
      split <;> omega
  | code =>
      simp only [nodeLength]
      omega
  | storageRoot =>
      simp only [nodeLength]
      split <;> omega

/-- The node of a kind at an address. -/
def node (address : Address) (kind : NodeKind) : TrieNode :=
  (kind.key address, NodeLength.ofNat (v.nodeLength address kind))

theorem toNat_ofNat_nodeLength (address : Address) (kind : NodeKind) :
    (NodeLength.ofNat (v.nodeLength address kind)).toNat = v.nodeLength address kind :=
  Nat.min_eq_left (v.nodeLength_le address kind)

theorem accountNode_eq (address : Address) : v.accountNode address = v.node address .account := by
  refine Prod.ext (NodeKind.tagged_toWord .account address) (congrArg NodeLength.ofNat ?_)
  rw [nodeLength, hasAccount]
  cases v.account? address with
  | none => rfl
  | some account => exact account.length_node

theorem codeNode_eq (address : Address) : v.codeNode address = v.node address .code := by
  refine Prod.ext (NodeKind.tagged_toWord .code address) (Unsigned.ext ?_)
  have hlength : ((v.code? address).map (·.length)).getD 0 =
      ((v.code? address).getD []).length := by
    cases v.code? address <;> rfl
  rw [codeNode, hlength]
  refine Eq.trans ?_ (v.toNat_ofNat_nodeLength address .code).symm
  rfl

theorem storageRootNode_eq (address : Address) :
    v.storageRootNode address = v.node address .storageRoot :=
  Prod.ext (NodeKind.tagged_toWord .storageRoot address) rfl

theorem node_eq_iff {address : Address} {kind : NodeKind} {key : Word} {length : NodeLength} :
    v.node address kind = (key, length) ↔
      key = kind.key address ∧ length.toNat = v.nodeLength address kind := by
  rw [node, Prod.mk.injEq, Unsigned.ext_iff, toNat_ofNat_nodeLength]
  exact and_congr eq_comm eq_comm

/-- The nodes of an account are one of each kind that it has. -/
theorem nodes_eq (address : Address) : v.nodes address = (v.nodeKinds address).map (v.node address) := by
  rw [nodes, nodeKinds, accountNode_eq, codeNode_eq, storageRootNode_eq]
  split <;> rfl

theorem nodup_nodeKinds (address : Address) : (v.nodeKinds address).Nodup := by
  unfold nodeKinds
  split <;> decide

/-- Each of the nodes is there once, and each account has one or three. -/
theorem length_flatMap_nodes (addresses : List Address) :
    (addresses.flatMap v.nodes).length = addresses.length + 2 * addresses.countP v.hasContract := by
  induction addresses with
  | nil => rfl
  | cons a addresses ih =>
      have hfirst : (v.nodes a).length = if v.hasContract a then 3 else 1 := by
        rw [nodes]
        split <;> rfl
      rw [List.flatMap_cons, List.length_append, ih, hfirst, List.length_cons, List.countP_cons]
      split <;> omega

theorem mem_flatMap_nodes {addresses : List Address} {entry : TrieNode} :
    entry ∈ addresses.flatMap v.nodes ↔
      ∃ a ∈ addresses, ∃ kind ∈ v.nodeKinds a, v.node a kind = entry := by
  simp only [List.mem_flatMap, nodes_eq, List.mem_map]

theorem message_mem_nodeMessages {addresses : List Address} {a : Address} (ha : a ∈ addresses)
    {kind : NodeKind} (hkind : kind ∈ v.nodeKinds a) :
    kind.message a ∈ v.nodeMessages addresses :=
  List.mem_flatMap.mpr ⟨a, ha, List.mem_map_of_mem hkind⟩

/-- Nodes of different names have different keys, if no two of the messages have one digest. -/
theorem pairwise_keys {addresses : List Address} (hdistinct : addresses.Nodup)
    (hseparate : ¬Digest.Collide (v.nodeMessages addresses)) :
    (addresses.flatMap v.nodes).Pairwise fun s t => ¬compare s.1 t.1 = .eq := by
  have hkeys {a b : Address} (ha : a ∈ addresses) (hb : b ∈ addresses) {kind other : NodeKind}
      (hkind : kind ∈ v.nodeKinds a) (hother : other ∈ v.nodeKinds b)
      (hname : ¬(kind = other ∧ a = b)) : ¬compare (kind.key a) (other.key b) = .eq := by
    intro hequal
    have hdigest := NodeKind.key_eq_iff.mp (Std.LawfulEqOrd.eq_of_compare hequal)
    exact hseparate ⟨_, v.message_mem_nodeMessages ha hkind, _, v.message_mem_nodeMessages hb hother,
      fun hmessage => hname (NodeKind.message_inj hmessage), hdigest⟩
  rw [List.pairwise_flatMap]
  constructor
  · intro a ha
    rw [nodes_eq, List.pairwise_map]
    exact (v.nodup_nodeKinds a).imp_of_mem fun hkind hother hne =>
      hkeys ha ha hkind hother fun hname => hne hname.1
  · refine hdistinct.imp_of_mem fun ha hb hne s hs t ht => ?_
    rw [nodes_eq] at hs ht
    obtain ⟨kind, hkind, rfl⟩ := List.mem_map.mp hs
    obtain ⟨other, hother, rfl⟩ := List.mem_map.mp ht
    exact hkeys ha hb hkind hother fun hname => hne hname.2

end View

/-! ## Recording -/

namespace Execution

/-- Adds the nodes of several accounts to the rent table, one account after the other. -/
def recordAll (e : Execution) (addresses : List Address) : Execution :=
  addresses.foldl recordNodes e

theorem newNodes_foldl_addNode (nodes : List TrieNode) (r : RunResult) :
    (nodes.foldl RunResult.addNode r).newNodes =
      nodes.foldl (fun table node => table.insert node.1 node.2) r.newNodes := by
  induction nodes generalizing r with
  | nil => rfl
  | cons node nodes ih => exact ih (r.addNode node)

/-- Recording reads the outer view, which it leaves as it is. -/
theorem newNodes_recordAll_eq (e : Execution) (addresses : List Address) :
    (e.recordAll addresses).result.newNodes =
      (addresses.flatMap e.outer.nodes).foldl (fun table node => table.insert node.1 node.2)
        e.result.newNodes := by
  induction addresses generalizing e with
  | nil => rfl
  | cons a addresses ih =>
      have hfirst : (e.recordNodes a).result.newNodes =
          (e.outer.nodes a).foldl (fun table node => table.insert node.1 node.2)
            e.result.newNodes := newNodes_foldl_addNode _ _
      rw [List.flatMap_cons, List.foldl_append, ← hfirst]
      exact ih (e.recordNodes a)

/-- What the rent table holds for addresses of a view: one entry for each and two more for each
contract, under the keys and with the lengths of their nodes. -/
structure Tabulates (table : Std.ExtTreeMap Word NodeLength) (v : View)
    (addresses : List Address) : Prop where
  size : table.size = addresses.length + 2 * addresses.countP v.hasContract
  entry : ∀ key length, table[key]? = some length ↔
    ∃ a ∈ addresses, ∃ kind ∈ v.nodeKinds a,
      key = kind.key a ∧ length.toNat = v.nodeLength a kind

/-- A table made of entries with different keys holds just these entries. -/
theorem getElem?_ofList_eq_some_iff {entries : List TrieNode}
    (hkeys : entries.Pairwise fun s t => ¬compare s.1 t.1 = .eq) {key : Word}
    {length : NodeLength} :
    (Std.ExtTreeMap.ofList entries compare)[key]? = some length ↔ (key, length) ∈ entries := by
  refine ⟨fun hread => ?_, Std.ExtTreeMap.getElem?_ofList_of_mem Std.ReflOrd.compare_self hkeys⟩
  by_cases hmem : key ∈ entries.map Prod.fst
  · obtain ⟨⟨key, found⟩, hfound, rfl⟩ := List.mem_map.mp hmem
    have hread' := Std.ExtTreeMap.getElem?_ofList_of_mem
      (Std.ReflOrd.compare_self (a := key)) hkeys hfound
    rw [hread'] at hread
    exact Option.some.inj hread ▸ hfound
  · have hnone : (Std.ExtTreeMap.ofList entries compare)[key]? = none :=
      Std.ExtTreeMap.getElem?_ofList_of_contains_eq_false (by simpa using hmem)
    rw [hnone] at hread
    cases hread

theorem tabulates_recordAll {e : Execution} {addresses : List Address}
    (hempty : e.result.newNodes = ∅) (hdistinct : addresses.Nodup)
    (hseparate : ¬Digest.Collide (e.outer.nodeMessages addresses)) :
    Tabulates (e.recordAll addresses).result.newNodes e.outer addresses := by
  have hkeys := e.outer.pairwise_keys hdistinct hseparate
  have htable : (e.recordAll addresses).result.newNodes =
      Std.ExtTreeMap.ofList (addresses.flatMap e.outer.nodes) compare := by
    rw [newNodes_recordAll_eq, hempty, Std.ExtTreeMap.ofList_eq_foldl]
  rw [htable]
  constructor
  · rw [Std.ExtTreeMap.size_ofList hkeys, e.outer.length_flatMap_nodes]
  · intro key length
    simp only [getElem?_ofList_eq_some_iff hkeys, View.mem_flatMap_nodes, View.node_eq_iff]

/-- Which entries a table holds for addresses does not hang on their order. -/
theorem Tabulates.ext {table other : Std.ExtTreeMap Word NodeLength} {v : View}
    {addresses turned : List Address} (h : Tabulates table v addresses)
    (hturned : Tabulates other v turned) (hperm : turned.Perm addresses) : other = table := by
  refine Std.ExtTreeMap.ext_getElem? fun key => Option.ext fun length => ?_
  rw [hturned.entry, h.entry]
  exact exists_congr fun a => and_congr_left fun _ => hperm.mem_iff

/-- Recording distinct addresses in an empty table puts in one entry for each and two more for each
contract, in whatever order, unless two of the messages that are hashed have one digest. -/
theorem newNodes_recordAll {e : Execution} {addresses : List Address}
    (hempty : e.result.newNodes = ∅) (hdistinct : addresses.Nodup) :
    Digest.Collide (e.outer.nodeMessages addresses) ∨
      Tabulates (e.recordAll addresses).result.newNodes e.outer addresses ∧
        ∀ turned : List Address, turned.Perm addresses →
          (e.recordAll turned).result.newNodes = (e.recordAll addresses).result.newNodes := by
  refine Classical.or_iff_not_imp_left.mpr fun hseparate => ?_
  have htable := tabulates_recordAll hempty hdistinct hseparate
  refine ⟨htable, fun turned hperm => ?_⟩
  refine htable.ext (tabulates_recordAll hempty (hperm.symm.nodup hdistinct) fun hcollide => ?_)
    hperm
  exact hseparate (hcollide.mono (hperm.flatMap_right _).subset)

/-- A contract with code and storage, an account and no account. -/
def recording : Execution where
  outer := ((View.root.put (Octets.ofNat .address 1) { balance := 5 }).setUpContract
    (Octets.ofNat .address 2)).saveCode (Octets.ofNat .address 2) [1, 2, 3]
  senders := SenderCache.ofCapacity 1

theorem newNodes_recordAll_three :
    let addresses := [1, 2, 3].map (Octets.ofNat .address)
    let table := (recording.recordAll addresses).result.newNodes
    table.size = 5 ∧ table[NodeKind.code.key (Octets.ofNat .address 2)]? = some 3 ∧
      (recording.recordAll addresses.reverse).result.newNodes = table := by
  intro addresses table
  have hfacts : addresses.Nodup ∧ ¬Digest.Collide (recording.outer.nodeMessages addresses) ∧
      addresses.countP recording.outer.hasContract = 1 ∧
      NodeKind.code ∈ recording.outer.nodeKinds (Octets.ofNat .address 2) ∧
      recording.outer.nodeLength (Octets.ofNat .address 2) .code = 3 := by
    decide +kernel
  obtain ⟨hdistinct, hseparate, hcontracts, hkind, hlength⟩ := hfacts
  obtain ⟨htable, horder⟩ :=
    (newNodes_recordAll (e := recording) rfl hdistinct).resolve_left hseparate
  refine ⟨?_, ?_, horder _ addresses.reverse_perm⟩
  · rw [htable.size, hcontracts]
    rfl
  · exact (htable.entry _ _).mpr ⟨_, by simp [addresses], _, hkind, rfl, hlength.symm⟩

end Execution

end LedgerExec
