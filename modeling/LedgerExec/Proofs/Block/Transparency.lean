import LedgerExec.Proofs.Block.Replay
set_option autoImplicit false

/-!
# A cache that cannot be seen

However many senders the cache may keep, and whatever it has forgotten, it gives the
sender of a transaction that the transaction names itself, and never grows beyond its
capacity: `SenderCache.Sound` goes through every call of its history.

For blocks this is carried by two facts about one execution: it does not read the size
that the chain gives the cache (`execute_withCacheSize`), and from sound caches it comes
to the same (`Job.execute_eq_of_sound`).  So a block executed beside another cache of
another size keeps step with itself (`BlockProgress.Alike`), and so does a sequence of
blocks, even if the cache is thrown away after each of them.
-/

namespace LedgerExec

/-- Transactions of which no two have the same digest are unambiguous. -/
theorem Unambiguous.of_injective {transactions : List Transaction}
    (h : ∀ s ∈ transactions, ∀ t ∈ transactions, s.hash = t.hash → s = t) :
    Unambiguous transactions :=
  fun s hs t ht hhash => congrArg Transaction.sender (h s hs t ht hhash)

/-! ## The history of a cache -/

namespace SenderCache

/-- What a cache can be asked to do. -/
inductive Call where
  /-- to give the sender of a transaction -/
  | sender (t : Transaction)
  /-- to keep the sender of a transaction -/
  | store (t : Transaction)

/-- The transaction that a call is about. -/
def Call.transaction : Call → Transaction
  | .sender t => t
  | .store t => t

/-- The cache after a call. -/
def call (c : SenderCache) : Call → SenderCache
  | .sender t => (c.sender t).2
  | .store t => c.store t

/-- The cache after a history of calls, the first one first. -/
def after (c : SenderCache) (history : List Call) : SenderCache := history.foldl call c

variable {c : SenderCache} {transactions : List Transaction}

theorem Sound.call (h : c.Sound transactions) (hsenders : Unambiguous transactions) {request : Call}
    (hrequest : request.transaction ∈ transactions) : (c.call request).Sound transactions := by
  cases request with
  | store t => exact h.store hsenders hrequest
  | sender t =>
      have hkept : c.call (.sender t) = c.store t := congrArg Prod.snd (h.sender hrequest)
      rw [hkept]
      exact h.store hsenders hrequest

theorem Sound.after (h : c.Sound transactions) (hsenders : Unambiguous transactions)
    {history : List Call} (hhistory : ∀ request ∈ history, request.transaction ∈ transactions) :
    (c.after history).Sound transactions := by
  induction history generalizing c with
  | nil => exact h
  | cons request rest ih =>
      obtain ⟨hrequest, hrest⟩ := List.forall_mem_cons.mp hhistory
      exact ih (h.call hsenders hrequest) hrest

/-- What is put into a cache leaves it no more than it may keep. -/
theorem size_put_le (c : SenderCache) (hash : Digest) (sender : Address) :
    (c.put hash sender).size ≤ c.capacity := List.length_take_le _ _

/-- Every call is a put. -/
theorem exists_call_eq_put (c : SenderCache) (request : Call) :
    ∃ hash sender, c.call request = c.put hash sender := by
  cases request with
  | store t => exact ⟨t.hash, t.sender, rfl⟩
  | sender t =>
      rw [call, sender]
      split
      · exact ⟨t.hash, _, rfl⟩
      · exact ⟨t.hash, t.sender, rfl⟩

/-- A cache within its capacity stays within it. -/
theorem size_after_le (hsize : c.size ≤ c.capacity) (history : List Call) :
    (c.after history).size ≤ c.capacity := by
  induction history generalizing c with
  | nil => exact hsize
  | cons request rest ih =>
      obtain ⟨hash, sender, hput⟩ := c.exists_call_eq_put request
      change ((c.call request).after rest).size ≤ c.capacity
      rw [hput]
      exact ih (c.size_put_le hash sender)

end SenderCache

/-! ## The size of the cache in an execution -/

/-- The context of a chain that gives the cache another size. -/
def Context.withCacheSize (c : Context) (size : Count) : Context :=
  { c with chain.limits.senderCacheSize := size }

/-- The job on a chain that gives the cache another size. -/
def Job.withCacheSize (j : Job) (size : Count) : Job :=
  { j with context := j.context.withCacheSize size }

namespace Job

variable (j : Job) (size : Count)

theorem played_withCacheSize (outer : View) (senders : SenderCache) :
    (j.withCacheSize size).played outer senders = j.played outer senders := rfl

/-- No phase of an execution reads the size of the cache. -/
theorem execute_withCacheSize (outer : View) (senders : SenderCache) :
    (j.withCacheSize size).execute outer senders = j.execute outer senders := by
  have hvalidate : (j.withCacheSize size).validate outer senders = j.validate outer senders := rfl
  have hfinalize (e : Execution) : (j.withCacheSize size).finalize e = j.finalize e := rfl
  simp only [execute, hvalidate, played_withCacheSize, hfinalize]

end Job

/-! ## Two caches beside one another -/

namespace BlockProgress

variable {transactions : List Transaction} {p q : BlockProgress} {t : Transaction}

/-- Two runs of a block that have come to the same, each with a cache that is right. -/
structure Alike (transactions : List Transaction) (p q : BlockProgress) : Prop where
  same : q = { p with senders := q.senders, runs := q.runs }
  left : p.senders.Sound transactions
  right : q.senders.Sound transactions

theorem Alike.next (h : Alike transactions p q) (context : Context) (size : Count)
    (ht : t ∈ transactions) :
    q.next (context.withCacheSize size) t =
      (p.next context t).withSenders (q.next (context.withCacheSize size) t).senders := by
  have hnext : q.next (context.withCacheSize size) t =
      (p.job context t).execute p.view q.senders := by
    rw [h.same]
    exact Job.execute_withCacheSize (p.job context t) size p.view q.senders
  rw [hnext]
  exact Job.execute_eq_of_sound rfl h.left h.right ht

/-- Runs that are alike stay so. -/
theorem Alike.step (h : Alike transactions p q) (hsenders : Unambiguous transactions)
    (context : Context) (size : Count) (ht : t ∈ transactions) :
    Alike transactions (p.step context t) (q.step (context.withCacheSize size) t) := by
  have hnext := h.next context size ht
  have hleft := sound_next hsenders h.left context ht
  have hright := sound_next hsenders h.right (context.withCacheSize size) ht
  cases hverdict : (p.next context t).accepted with
  | true =>
      have hother : (q.next (context.withCacheSize size) t).accepted = true := by
        rw [hnext]
        exact hverdict
      rw [step_of_accepted hverdict, step_of_accepted hother]
      refine ⟨?_, hleft, hright⟩
      rw [hnext, h.same]
      rfl
  | false =>
      have hother : (q.next (context.withCacheSize size) t).accepted = false := by
        rw [hnext]
        exact hverdict
      rw [step_of_rejected hverdict, step_of_rejected hother]
      refine ⟨?_, hleft, hright⟩
      rw [hnext, h.same]
      rfl

/-- The same transactions keep runs alike. -/
theorem Alike.foldl (h : Alike transactions p q) (hsenders : Unambiguous transactions)
    (context : Context) (size : Count) {block : List Transaction}
    (hblock : ∀ t ∈ block, t ∈ transactions) :
    Alike transactions (block.foldl (BlockProgress.step context) p)
      (block.foldl (BlockProgress.step (context.withCacheSize size)) q) := by
  induction block generalizing p q with
  | nil => exact h
  | cons t rest ih =>
      obtain ⟨ht, hrest⟩ := List.forall_mem_cons.mp hblock
      exact ih (h.step hsenders context size ht) hrest

end BlockProgress

namespace BlockExecutor

/-- The executor on a chain that gives the cache another size, with a cache that is given. -/
def withCache (x : BlockExecutor) (size : Count) (senders : SenderCache) : BlockExecutor :=
  { x with chain.limits.senderCacheSize := size, senders }

/-- The executor as it starts on a chain that gives the cache another size. -/
def withCacheSize (x : BlockExecutor) (size : Count) : BlockExecutor :=
  x.withCache size (SenderCache.ofCapacity size.toNat)

/-- A new executor over the same stores. -/
def renew (x : BlockExecutor) : BlockExecutor := x.withCacheSize x.chain.limits.senderCacheSize

/-- Executes blocks one after the other, each with a new executor over what is stored by then. -/
def executeAllRenewed (x : BlockExecutor) (state : View) : List Block → List BlockOutcome
  | [] => []
  | block :: rest =>
    let o := x.renew.execute block state
    o :: o.executor.executeAllRenewed o.view rest

/-- What can be seen of the outcome of a block: its result, the state and the two stores. -/
def visible (o : BlockOutcome) : BlockResult × View × BlockIndex × ReceiptIndex :=
  (o.result, o.view, o.executor.blocks, o.executor.receipts)

variable {x : BlockExecutor} {senders : SenderCache} {transactions : List Transaction}

/-- Of a block another cache of another size changes what the executor keeps in it alone. -/
theorem execute_withCache (hsenders : Unambiguous transactions)
    (hsound : x.senders.Sound transactions) (hother : senders.Sound transactions) (size : Count)
    (state : View) {block : Block} (hblock : ∀ t ∈ block.transactions, t ∈ transactions) :
    let o := x.execute block state
    let o' := (x.withCache size senders).execute block state
    visible o' = visible o ∧ o.executor.senders.Sound transactions ∧
      o'.executor.senders.Sound transactions ∧
      o'.executor = o.executor.withCache size o'.executor.senders := by
  have hstart : BlockProgress.Alike transactions { view := state.push, senders := x.senders }
      { view := state.push, senders } := ⟨rfl, hsound, hother⟩
  obtain ⟨hsame, hleft, hright⟩ :=
    hstart.foldl hsenders (x.context block.header) size hblock
  have hcontext : (x.withCache size senders).context block.header =
      (x.context block.header).withCacheSize size := rfl
  have hstarted : (x.withCache size senders).senders = senders := rfl
  refine ⟨?_, hleft, hright, ?_⟩
  · simp only [visible, execute, hcontext, hstarted]
    rw [hsame]
    rfl
  · simp only [execute, hcontext, hstarted]
    rw [hsame]
    rfl

/-- Of a sequence of blocks another cache of another size changes nothing that can be seen. -/
theorem visible_executeAll_withCache (hsenders : Unambiguous transactions)
    (hsound : x.senders.Sound transactions) (hother : senders.Sound transactions) (size : Count)
    (state : View) {blocks : List Block}
    (hblocks : ∀ block ∈ blocks, ∀ t ∈ block.transactions, t ∈ transactions) :
    ((x.withCache size senders).executeAll state blocks).map visible =
      (x.executeAll state blocks).map visible := by
  induction blocks generalizing x senders state with
  | nil => rfl
  | cons block rest ih =>
      obtain ⟨hblock, hrest⟩ := List.forall_mem_cons.mp hblocks
      obtain ⟨hvisible, hleft, hright, hexecutor⟩ :=
        execute_withCache hsenders hsound hother size state hblock
      have hview : ((x.withCache size senders).execute block state).view =
          (x.execute block state).view := congrArg (·.2.1) hvisible
      have hrun (y : BlockExecutor) : (y.executeAll state (block :: rest)).map visible =
          visible (y.execute block state) ::
            ((y.execute block state).executor.executeAll (y.execute block state).view rest).map
              visible := rfl
      rw [hrun, hrun, hvisible, hview, hexecutor, ih hleft hright _ hrest]

/-- Nor does it if the cache is thrown away after each block. -/
theorem visible_executeAllRenewed (hsenders : Unambiguous transactions)
    (hsound : x.senders.Sound transactions) (state : View) {blocks : List Block}
    (hblocks : ∀ block ∈ blocks, ∀ t ∈ block.transactions, t ∈ transactions) :
    (x.executeAllRenewed state blocks).map visible = (x.executeAll state blocks).map visible := by
  induction blocks generalizing x state with
  | nil => rfl
  | cons block rest ih =>
      obtain ⟨hblock, hrest⟩ := List.forall_mem_cons.mp hblocks
      have hempty : (SenderCache.ofCapacity x.chain.limits.senderCacheSize.toNat).Sound
          transactions := SenderCache.sound_of_empty rfl transactions
      have hkept := (execute_withCache hsenders hsound hempty x.chain.limits.senderCacheSize state
        hblock).2.2.1
      have hrest := ih hkept (x.renew.execute block state).view hrest
      -- all blocks by the renewed executor, which from here on lasts
      rw [← visible_executeAll_withCache hsenders hsound hempty x.chain.limits.senderCacheSize state
        hblocks]
      exact congrArg (visible (x.renew.execute block state) :: ·) hrest

/-- However much the cache of senders may keep, it gives what is asked for and stays within its
capacity; and nothing that blocks come to depends on its size, or on its lasting from one block to
the next. -/
theorem transparent_senders (hsenders : Unambiguous transactions) :
    (∀ (capacity : Nat) (history : List SenderCache.Call),
      (∀ request ∈ history, request.transaction ∈ transactions) →
        ((SenderCache.ofCapacity capacity).after history).size ≤ max capacity 1 ∧
          ∀ t ∈ transactions,
            (((SenderCache.ofCapacity capacity).after history).sender t).1 = t.sender) ∧
      ∀ (x : BlockExecutor) (state : View) (blocks : List Block),
        (∀ block ∈ blocks, ∀ t ∈ block.transactions, t ∈ transactions) →
          ∀ size other : Count,
            ((x.withCacheSize size).executeAll state blocks).map visible =
                ((x.withCacheSize other).executeAll state blocks).map visible ∧
              ((x.withCacheSize size).executeAll state blocks).map visible =
                ((x.withCacheSize size).executeAllRenewed state blocks).map visible := by
  have hempty (capacity : Nat) : (SenderCache.ofCapacity capacity).Sound transactions :=
    SenderCache.sound_of_empty rfl transactions
  refine ⟨fun capacity history hhistory => ⟨?_, fun t ht => ?_⟩,
    fun x state blocks hblocks size other => ⟨?_, ?_⟩⟩
  · exact SenderCache.size_after_le (Nat.zero_le _) history
  · exact congrArg Prod.fst (((hempty capacity).after hsenders hhistory).sender ht)
  · exact visible_executeAll_withCache (x := x.withCacheSize other) hsenders (hempty _) (hempty _)
      size state hblocks
  · exact (visible_executeAllRenewed hsenders (hempty _) state hblocks).symm

/-- A cache of one sender is asked for three, and a block is executed twice. -/
theorem transparent_senders_sample :
    let cache := (SenderCache.ofCapacity 0).after (Block.sample.transactions.map .sender)
    let outcomes (size : Count) :=
      (plain.withCacheSize size).executeAll View.sample [Block.sample, Block.sample]
    (cache.size ≤ 1 ∧ ∃ t ∈ Block.sample.transactions,
        cache.has t.hash = false ∧ (cache.sender t).1 = t.sender) ∧
      (outcomes 0).map (·.result.receipts.length) = [2, 0] ∧
      (outcomes 0).map visible = (outcomes 2).map visible ∧
      (outcomes 0).map visible =
        ((plain.withCacheSize 0).executeAllRenewed View.sample
          [Block.sample, Block.sample]).map visible := by
  have hinjective : ∀ s ∈ Block.sample.transactions, ∀ t ∈ Block.sample.transactions,
      s.hash = t.hash → s = t := by decide +kernel
  obtain ⟨hcache, hblocks⟩ := transparent_senders (Unambiguous.of_injective hinjective)
  obtain ⟨hsize, hsender⟩ := hcache 0 (Block.sample.transactions.map .sender) (by
    intro request hrequest
    obtain ⟨t, ht, rfl⟩ := List.mem_map.mp hrequest
    exact ht)
  obtain ⟨hsizes, hrenewed⟩ := hblocks plain View.sample [Block.sample, Block.sample] (by
    simp only [List.forall_mem_cons, List.not_mem_nil, false_imp_iff, implies_true]
    exact ⟨fun _ ht => ht, fun _ ht => ht, trivial⟩) 0 2
  refine ⟨⟨hsize, _, List.mem_cons_self, ?_, hsender _ List.mem_cons_self⟩, ?_, hsizes, hrenewed⟩
  · decide +kernel
  · decide +kernel

end BlockExecutor

end LedgerExec
