import Mathlib.Data.List.Induction
import LedgerExec.Proofs.Block.Ancestry
import LedgerExec.Proofs.Block.Replay
import LedgerExec.Proofs.Execution.Validity
set_option autoImplicit false

/-!
# The nonces that a scenario assigns

A scenario signs the transactions of a block before the block is executed, and counts the nonces
of each sender from the one in the state.  `Counts` says that the signer and the executor agree
about a sender of whom no transaction has been rejected yet.  An acceptance raises both counts by
one, up to the greatest nonce, whether the run succeeds or fails, and a rejection raises the
signer's alone (`Counts.step`).  So the first rejection of a sender in a block is never for the
nonce (`excused_rulings`), and by the same step in every block of a scenario
(`Scenario.nonces_agree`).

Creating a contract over a sender would set the nonce of the sender back, so the addresses where
contracts are created are kept apart from the senders of the block.
-/

namespace LedgerExec

/-! ## Rejections -/

/-- Whether a transaction is rejected for its nonce. -/
def Rejection.isNonce : Rejection → Bool
  | .invalidNonce _ _ => true
  | _ => false

/-- Why a transaction was rejected, if it was. -/
def Execution.rejection? (e : Execution) : Option Rejection :=
  match e.error with
  | some (.rejected reason) => some reason
  | _ => none

theorem Execution.rejection?_of_accepted {e : Execution} (haccepted : e.accepted = true) :
    e.rejection? = none := by
  unfold rejection?
  unfold accepted at haccepted
  split
  · rename_i herror
    simp [herror] at haccepted
  · rfl

theorem Execution.exists_rejection {e : Execution} (hrejected : e.accepted = false) :
    ∃ reason, e.rejection? = some reason ∧ e.error = some (.rejected reason) ∧
      e.errorText = reason.message := by
  unfold accepted at hrejected
  split at hrejected
  · rename_i reason herror
    refine ⟨reason, ?_, herror, ?_⟩
    · rw [rejection?, herror]
    · rw [errorText, herror]
      rfl
  · exact nomatch hrejected

namespace Job

variable {j : Job} {outer : View} {senders : SenderCache} {transactions : List Transaction}
  {reason : Rejection}

/-- A check that rejects no transaction for its nonce. -/
def Blameless (check : Except Rejection Unit) : Prop :=
  ∀ reason, check = .error reason → reason.isNonce = false

theorem blameless_ite {p : Prop} [Decidable p] (hreason : reason.isNonce = false)
    {check : Except Rejection Unit} (hcheck : Blameless check) :
    Blameless (if p then .error reason else check) := by
  split
  · intro other hother
    rwa [← Except.error.inj hother]
  · exact hcheck

theorem blameless_ok : Blameless (.ok ()) := fun _ h => nomatch h

theorem Blameless.bind {first second : Except Rejection Unit} (hfirst : Blameless first)
    (hsecond : Blameless second) : Blameless (first >>= fun _ => second) := by
  cases first with
  | error reason => exact hfirst
  | ok => exact hsecond

/-- The other checks give reasons of their own. -/
theorem blameless_validate (hchain : j.isLocal = false) (hsound : senders.Sound transactions)
    (ht : j.transaction ∈ transactions)
    (hnonce : outer.nonce j.transaction.sender = j.transaction.payload.nonce) :
    Blameless (j.validate outer senders).1 := by
  have hgas : Blameless j.checkGas := blameless_ite rfl (blameless_ite rfl blameless_ok)
  have hcash : Blameless (j.checkCash outer j.transaction.sender) := blameless_ite rfl blameless_ok
  have hreceiver : Blameless j.checkReceiver := blameless_ite rfl blameless_ok
  have hsignature : Blameless j.checkSignature := by
    unfold checkSignature
    rw [← ite_not]
    exact blameless_ite rfl blameless_ok
  have hsender : Blameless (j.checkSender outer j.transaction.sender) := by
    have hchecked := checkNonce_eq_ok_iff.mpr hnonce
    rw [checkSender, hchecked]
    exact hcash.bind (hreceiver.bind hsignature)
  rw [validate_of_sound hchain hsound ht]
  cases hcheck : j.checkGas with
  | error reason =>
      rw [hcheck] at hgas
      exact hgas
  | ok => exact hsender

/-- Only a transaction with another nonce than its sender is rejected for the nonce. -/
theorem nonce_ne_of_rejected (hchain : j.isLocal = false) (hsound : senders.Sound transactions)
    (ht : j.transaction ∈ transactions)
    (hrejected : (j.execute outer senders).rejection? = some reason)
    (hreason : reason.isNonce = true) :
    outer.nonce j.transaction.sender ≠ j.transaction.payload.nonce := by
  intro hnonce
  have hblameless := blameless_validate hchain hsound ht hnonce
  cases hvalid : (j.validate outer senders).1 with
  | ok =>
      rw [Execution.rejection?_of_accepted ((j.accepted_execute outer senders).mpr hvalid)]
        at hrejected
      exact nomatch hrejected
  | error other =>
      rw [execute_of_rejected hvalid] at hrejected
      obtain rfl : other = reason := Option.some.inj hrejected
      have hother := hblameless other hvalid
      rw [hreason] at hother
      exact nomatch hother

end Job

/-! ## Rulings -/

/-- A transaction of a block and the reason for its rejection, if it is rejected. -/
structure Ruling where
  transaction : Transaction
  reason? : Option Rejection

/-- What a block result says of the transaction if it is rejected. -/
def Ruling.entry? (r : Ruling) : Option RejectedTransaction :=
  r.reason?.map fun reason => ⟨r.transaction.hash, reason.message⟩

/-- A transaction of the sender has been rejected. -/
def Spoiled (rulings : List Ruling) (sender : Address) : Prop :=
  ∃ r ∈ rulings, r.transaction.sender = sender ∧ r.reason?.isSome = true

/-- Every rejection for the nonce comes after a rejection of the same sender. -/
def Excused (rulings : List Ruling) : Prop :=
  ∀ before r after, rulings = before ++ r :: after → ∀ reason, r.reason? = some reason →
    reason.isNonce = true → Spoiled before r.transaction.sender

theorem excused_nil : Excused [] := fun _ _ _ h => by simp at h

theorem Excused.left {before after : List Ruling} (h : Excused (before ++ after)) :
    Excused before := by
  rintro first r rest rfl
  exact h first r (rest ++ after) (by simp)

theorem Excused.concat {rulings : List Ruling} {r : Ruling} (h : Excused rulings)
    (hr : ∀ reason, r.reason? = some reason → reason.isNonce = true →
      Spoiled rulings r.transaction.sender) : Excused (rulings ++ [r]) := by
  intro before s after heq
  cases List.eq_nil_or_concat after with
  | inl hnone =>
      subst hnone
      obtain ⟨rfl, hsame⟩ := List.append_inj' heq rfl
      obtain rfl := List.singleton_inj.mp hsame
      exact hr
  | inr hmore =>
      obtain ⟨rest, last, rfl⟩ := hmore
      have hsplit : rulings ++ [r] = (before ++ s :: rest) ++ [last] := by
        rw [heq]
        simp
      exact h before s rest (List.append_inj' hsplit rfl).1

/-- Where only nonces are given as reasons there is no first one. -/
theorem Excused.reason?_eq_none {rulings : List Ruling} (h : Excused rulings)
    (honly : ∀ r ∈ rulings, ∀ reason, r.reason? = some reason → reason.isNonce = true) :
    ∀ r ∈ rulings, r.reason? = none := by
  induction rulings using List.reverseRecOn with
  | nil => exact fun _ hr => nomatch hr
  | append_singleton before r ih =>
      have hbefore := ih h.left fun s hs => honly s (List.mem_append_left _ hs)
      refine List.forall_mem_append.mpr ⟨hbefore, List.forall_mem_singleton.mpr ?_⟩
      cases hreason : r.reason? with
      | none => rfl
      | some reason =>
          have hnonce := honly r (List.mem_append_right before List.mem_cons_self) reason hreason
          obtain ⟨s, hs, -, hrejected⟩ := h before r [] rfl reason hreason hnonce
          rw [hbefore s hs] at hrejected
          exact nomatch hrejected

namespace BlockProgress

variable {context : Context} {p : BlockProgress} {t : Transaction}

/-- The rulings on transactions that are next in a block. -/
def rulings (context : Context) : BlockProgress → List Transaction → List Ruling
  | _, [] => []
  | p, t :: rest => ⟨t, (p.next context t).rejection?⟩ :: rulings context (p.step context t) rest

theorem map_rulings (context : Context) (p : BlockProgress) (transactions : List Transaction) :
    (rulings context p transactions).map (·.transaction) = transactions := by
  induction transactions generalizing p with
  | nil => rfl
  | cons t rest ih => rw [rulings, List.map_cons, ih]

/-- The rejections of a block are what its rulings say. -/
theorem rejected_foldl (context : Context) (p : BlockProgress) (transactions : List Transaction) :
    (transactions.foldl (step context) p).rejected =
      p.rejected ++ (rulings context p transactions).filterMap Ruling.entry? := by
  induction transactions generalizing p with
  | nil => exact (List.append_nil _).symm
  | cons t rest ih =>
      rw [List.foldl_cons, ih, rulings]
      cases hverdict : (p.next context t).accepted with
      | true =>
          have hnone : Ruling.entry? ⟨t, (p.next context t).rejection?⟩ = none := by
            rw [Ruling.entry?, Execution.rejection?_of_accepted hverdict]
            rfl
          rw [List.filterMap_cons_none hnone, step_of_accepted hverdict]
      | false =>
          obtain ⟨reason, hreason, -, htext⟩ := Execution.exists_rejection hverdict
          have hentry : Ruling.entry? ⟨t, (p.next context t).rejection?⟩ =
              some ⟨t.hash, (p.next context t).errorText⟩ := by
            rw [Ruling.entry?, hreason, htext]
            rfl
          rw [List.filterMap_cons_some hentry, step_of_rejected hverdict, List.append_assoc,
            List.singleton_append]

theorem mem_runs_foldl {run : Job × Execution} (context : Context) (hrun : run ∈ p.runs)
    (transactions : List Transaction) : run ∈ (transactions.foldl (step context) p).runs := by
  induction transactions generalizing p with
  | nil => exact hrun
  | cons t rest ih =>
      refine ih ?_
      cases hverdict : (p.next context t).accepted with
      | true =>
          rw [step_of_accepted hverdict]
          exact List.mem_append_left _ hrun
      | false =>
          rw [step_of_rejected hverdict]
          exact hrun

/-! ## Two counts of one nonce -/

/-- The signer and the executor agree on the next nonce of each sender of a block of whom no
transaction has been rejected. -/
def Counts (block : List Transaction) (state : View) (next : Std.ExtTreeMap Address Nonce)
    (done : List Ruling) (p : BlockProgress) : Prop :=
  ∀ t ∈ block, ¬Spoiled done t.sender →
    p.view.nonce t.sender = (next[t.sender]?).getD (state.nonce t.sender)

variable {block all : List Transaction} {state : View}
  {next : Std.ExtTreeMap Address Nonce} {done : List Ruling}

/-- The signer counts the next transaction, and the executor if it accepts it. -/
theorem Counts.step (h : Counts block state next done p)
    (hpassive : context.interpreter = Interpreter.passive) (hsound : p.senders.Sound all)
    (hall : t ∈ all)
    (hseparate : (p.next context t).accepted = true →
      ∀ s ∈ block, ¬(p.job context t).Creates (p.next context t) s.sender) :
    Counts block state (next.insert t.sender (Unsigned.addSat t.payload.nonce 1))
      (done ++ [⟨t, (p.next context t).rejection?⟩]) (p.step context t) := by
  intro s hs hclean
  have hcleanBefore : ¬Spoiled done s.sender := by
    rintro ⟨r, hr, hsender, hrejected⟩
    exact hclean ⟨r, List.mem_append_left _ hr, hsender, hrejected⟩
  have hbefore := h s hs hcleanBefore
  rw [Std.ExtTreeMap.getElem?_insert]
  cases hverdict : (p.next context t).accepted with
  | true =>
      have hsender := nonce_of_next hsound hall hverdict
      have hafter : (p.step context t).view.nonce s.sender =
          if s.sender = t.sender then Unsigned.addSat (p.view.nonce t.sender) 1
          else p.view.nonce s.sender := by
        rw [step_of_accepted hverdict]
        exact Job.nonce_execute rfl hpassive hverdict (hseparate hverdict s hs)
      rw [hafter, hsender]
      by_cases hsame : s.sender = t.sender
      · rw [if_pos hsame, if_pos (by simp [hsame])]
        rfl
      · rw [if_neg hsame, if_neg (by simpa using Ne.symm hsame)]
        exact hbefore
  | false =>
      -- the sender of a rejected transaction does not count any more
      have hother : s.sender ≠ t.sender := by
        intro hsame
        obtain ⟨reason, hreason, -⟩ := Execution.exists_rejection hverdict
        refine hclean ⟨⟨t, (p.next context t).rejection?⟩,
          List.mem_append_right done List.mem_cons_self, hsame.symm, ?_⟩
        rw [hreason]
        rfl
      rw [step_of_rejected hverdict, if_neg (by simpa using Ne.symm hother)]
      exact hbefore

/-- The next transaction is rejected for its nonce only after another one of its sender. -/
theorem Counts.spoiled (h : Counts block state next done p) (hsound : p.senders.Sound all)
    (hall : t ∈ all) (ht : t ∈ block)
    (hnonce : t.payload.nonce = (next[t.sender]?).getD (state.nonce t.sender))
    {reason : Rejection} (hrejected : (p.next context t).rejection? = some reason)
    (hreason : reason.isNonce = true) : Spoiled done t.sender := by
  refine Classical.byContradiction fun hclean => ?_
  have hsame : p.view.nonce t.sender = t.payload.nonce := (h t ht hclean).trans hnonce.symm
  exact Job.nonce_ne_of_rejected (j := p.job context t) rfl hsound hall hrejected hreason hsame

end BlockProgress

/-! ## Signing -/

/-- The first transaction that is signed, unless the scenario fixes its nonce. -/
theorem ScenarioBlock.exists_of_signFrom {state : View} {chainId : ChainId}
    {next : Std.ExtTreeMap Address Nonce} {first : ScenarioTransaction}
    {rest : List ScenarioTransaction} {signed : List Transaction} (hfree : first.nonce = none)
    (h : signFrom state chainId next (first :: rest) = .ok signed) :
    ∃ t tail, signed = t :: tail ∧
      t.payload.nonce = (next[t.sender]?).getD (state.nonce t.sender) ∧
      signFrom state chainId (next.insert t.sender (Unsigned.addSat t.payload.nonce 1)) rest =
        .ok tail := by
  obtain ⟨key, -, h⟩ := exists_of_bind h
  obtain ⟨payload, hpayload, h⟩ := exists_of_bind h
  obtain ⟨tail, htail, h⟩ := exists_of_bind h
  obtain ⟨data, -, hdata⟩ := exists_of_bind hpayload
  obtain rfl := Except.ok.inj h
  obtain rfl := Except.ok.inj hdata
  refine ⟨_, tail, rfl, ?_, htail⟩
  change first.nonce.getD _ = _
  rw [hfree]
  rfl

namespace BlockProgress

variable {context : Context} {p : BlockProgress} {block all : List Transaction}

theorem sound_step {t : Transaction} (hsenders : Unambiguous all) (hsound : p.senders.Sound all)
    (context : Context) (ht : t ∈ all) : (p.step context t).senders.Sound all := by
  have hnext := sound_next hsenders hsound context ht
  cases hverdict : (p.next context t).accepted with
  | true =>
      rw [step_of_accepted hverdict]
      exact hnext
  | false =>
      rw [step_of_rejected hverdict]
      exact hnext

theorem sound_foldl (hsenders : Unambiguous all) (hsound : p.senders.Sound all)
    (context : Context) (hblock : ∀ t ∈ block, t ∈ all) :
    (block.foldl (step context) p).senders.Sound all := by
  induction block generalizing p with
  | nil => exact hsound
  | cons t rest ih =>
      exact ih (sound_step hsenders hsound context (hblock t List.mem_cons_self))
        fun s hs => hblock s (List.mem_cons_of_mem t hs)

/-- The transactions of a block, signed with the nonces that are next. -/
theorem excused_rulings {state : View} {chainId : ChainId} {next : Std.ExtTreeMap Address Nonce}
    {plan : List ScenarioTransaction} {signed : List Transaction} {done : List Ruling}
    (hpassive : context.interpreter = Interpreter.passive) (hsenders : Unambiguous all)
    (hblock : ∀ t ∈ block, t ∈ all) (hfree : ∀ t ∈ plan, t.nonce = none)
    (hsigned : ScenarioBlock.signFrom state chainId next plan = .ok signed)
    (hwithin : ∀ t ∈ signed, t ∈ block) (hsound : p.senders.Sound all)
    (hseparate : ∀ run ∈ (signed.foldl (step context) p).runs, ∀ t ∈ block,
      ¬run.1.Creates run.2 t.sender)
    (hcounts : Counts block state next done p) (hexcused : Excused done) :
    Excused (done ++ rulings context p signed) := by
  induction plan generalizing next signed done p with
  | nil =>
      obtain rfl := Except.ok.inj hsigned
      rw [rulings, List.append_nil]
      exact hexcused
  | cons first rest ih =>
      obtain ⟨t, tail, rfl, hnonce, htail⟩ :=
        ScenarioBlock.exists_of_signFrom (hfree first List.mem_cons_self) hsigned
      have ht := hwithin t List.mem_cons_self
      have hsoundStep := sound_step hsenders hsound context (hblock t ht)
      have hseparateNext : (p.next context t).accepted = true →
          ∀ s ∈ block, ¬(p.job context t).Creates (p.next context t) s.sender := by
        intro hverdict
        refine hseparate (p.job context t, p.next context t) (mem_runs_foldl context ?_ tail)
        rw [step_of_accepted hverdict]
        exact List.mem_append_right _ List.mem_cons_self
      have hstep := hcounts.step hpassive hsound (hblock t ht) hseparateNext
      have hruling : Excused (done ++ [⟨t, (p.next context t).rejection?⟩]) :=
        hexcused.concat fun reason hrejected hreason =>
          hcounts.spoiled hsound (hblock t ht) ht hnonce hrejected hreason
      have hrest := ih (fun s hs => hfree s (List.mem_cons_of_mem first hs)) htail
        (fun s hs => hwithin s (List.mem_cons_of_mem t hs)) hsoundStep hseparate hstep hruling
      rw [List.append_assoc] at hrest
      exact hrest

end BlockProgress

namespace BlockExecutor

/-- The rulings on the transactions of a block. -/
def rulings (x : BlockExecutor) (block : Block) (state : View) : List Ruling :=
  BlockProgress.rulings (x.context block.header) { view := state.push, senders := x.senders }
    block.transactions

theorem map_transaction_rulings (x : BlockExecutor) (block : Block) (state : View) :
    (x.rulings block state).map (·.transaction) = block.transactions :=
  BlockProgress.map_rulings _ _ _

theorem rejected_execute (x : BlockExecutor) (block : Block) (state : View) :
    (x.execute block state).result.rejected =
      (x.rulings block state).filterMap Ruling.entry? := by
  have hrejected := BlockProgress.rejected_foldl (x.context block.header)
    { view := state.push, senders := x.senders } block.transactions
  rw [List.nil_append] at hrejected
  exact hrejected

end BlockExecutor

/-! ## Scenarios -/

namespace ScenarioProgress

variable {p q : ScenarioProgress} {all : List Transaction} {chain : ChainConfig}

/-- A scenario on its way: the chain and the interpreter are those that it has begun with, and the
cache is right about all its transactions. -/
structure Underway (all : List Transaction) (chain : ChainConfig) (p : ScenarioProgress) :
    Prop where
  chain : p.executor.chain = chain
  passive : p.executor.interpreter = Interpreter.passive
  sound : p.executor.senders.Sound all

theorem underway_start {s : Scenario} (hstart : s.start = .ok p) (all : List Transaction) :
    p.Underway all s.chain := by
  obtain ⟨built, -, hfirst⟩ := exists_of_bind hstart
  obtain rfl := Except.ok.inj hfirst
  exact ⟨rfl, rfl, SenderCache.sound_of_empty rfl all⟩

theorem Underway.next (h : p.Underway all chain) (hsenders : Unambiguous all) (b : ScenarioBlock)
    {transactions : List Transaction} (hall : ∀ t ∈ transactions, t ∈ all) :
    (p.next b transactions).Underway all chain where
  chain := h.chain
  passive := h.passive
  sound := BlockProgress.sound_foldl hsenders h.sound _ hall

/-- The next block with its outcome. -/
def executed (p : ScenarioProgress) (b : ScenarioBlock) (transactions : List Transaction) :
    Block × BlockOutcome :=
  (⟨b.header p.parent, transactions⟩,
    p.executor.execute ⟨b.header p.parent, transactions⟩ p.view)

theorem blocks_next (p : ScenarioProgress) (b : ScenarioBlock) (transactions : List Transaction) :
    (p.next b transactions).blocks = p.blocks ++ [p.executed b transactions] := rfl

/-- The blocks that are there stay, and every block of the scenario adds one. -/
theorem exists_blocks {blocks : List ScenarioBlock} (hrun : blocks.foldlM Scenario.step p = .ok q) :
    ∃ more, q.blocks = p.blocks ++ more ∧ more.length = blocks.length := by
  induction blocks generalizing p with
  | nil =>
      obtain rfl := Except.ok.inj hrun
      exact ⟨[], (List.append_nil _).symm, rfl⟩
  | cons b rest ih =>
      rw [List.foldlM_cons] at hrun
      obtain ⟨first, hstep, hrest⟩ := exists_of_bind hrun
      obtain ⟨transactions, -, rfl⟩ := exists_next hstep
      obtain ⟨more, hblocks, hlength⟩ := ih hrest
      refine ⟨p.executed b transactions :: more, ?_, ?_⟩
      · rw [hblocks, blocks_next, List.append_assoc, List.singleton_append]
      · rw [List.length_cons, hlength, List.length_cons]

theorem Underway.foldlM {blocks : List ScenarioBlock} (h : p.Underway all chain)
    (hsenders : Unambiguous all) (hrun : blocks.foldlM Scenario.step p = .ok q)
    (hall : ∀ run ∈ q.blocks, ∀ t ∈ run.1.transactions, t ∈ all) : q.Underway all chain := by
  induction blocks generalizing p with
  | nil =>
      obtain rfl := Except.ok.inj hrun
      exact h
  | cons b rest ih =>
      rw [List.foldlM_cons] at hrun
      obtain ⟨first, hstep, hrest⟩ := exists_of_bind hrun
      obtain ⟨transactions, -, rfl⟩ := exists_next hstep
      obtain ⟨more, hblocks, -⟩ := exists_blocks hrest
      refine ih (h.next hsenders b ?_) hrest
      refine hall (p.executed b transactions) ?_
      rw [hblocks, blocks_next]
      exact List.mem_append_left _ (List.mem_append_right _ List.mem_cons_self)

/-- A block of a scenario, between those before it and those after it. -/
theorem exists_block {blocks : List ScenarioBlock} {i : Nat} {b : ScenarioBlock}
    (hrun : blocks.foldlM Scenario.step p = .ok q) (hb : blocks[i]? = some b) :
    ∃ mid transactions after, (blocks.take i).foldlM Scenario.step p = .ok mid ∧
      b.sign mid.view mid.executor.chain.chainId = .ok transactions ∧
      q.blocks = mid.blocks ++ mid.executed b transactions :: after ∧
      mid.blocks.length = p.blocks.length + i := by
  obtain ⟨hi, hat⟩ := List.getElem?_eq_some_iff.mp hb
  have hsplit : blocks = blocks.take i ++ b :: blocks.drop (i + 1) := by
    rw [← hat, ← List.drop_eq_getElem_cons hi, List.take_append_drop]
  rw [hsplit, List.foldlM_append] at hrun
  obtain ⟨mid, hbefore, hrest⟩ := exists_of_bind hrun
  rw [List.foldlM_cons] at hrest
  obtain ⟨first, hstep, hafter⟩ := exists_of_bind hrest
  obtain ⟨transactions, hsigned, rfl⟩ := exists_next hstep
  obtain ⟨earlier, hearlier, hcount⟩ := exists_blocks hbefore
  obtain ⟨more, hmore, -⟩ := exists_blocks hafter
  refine ⟨mid, transactions, more, hbefore, hsigned, ?_, ?_⟩
  · rw [hmore, blocks_next, List.append_assoc, List.singleton_append]
  · rw [hearlier, List.length_append, hcount, List.length_take]
    omega

end ScenarioProgress

/-- How the nonces of a block come out that is executed on a state. -/
structure BlockExecutor.NoncesAgree (x : BlockExecutor) (block : Block) (state : View) : Prop where
  /-- the result reports the rulings on the transactions of the block -/
  transactions : (x.rulings block state).map (·.transaction) = block.transactions
  rejected : (x.execute block state).result.rejected =
    (x.rulings block state).filterMap Ruling.entry?
  excused : Excused (x.rulings block state)
  /-- nothing is rejected if nothing is rejected for another reason -/
  untroubled : (∀ r ∈ x.rulings block state, ∀ reason, r.reason? = some reason →
    reason.isNonce = true) → (x.execute block state).result.rejected = []

theorem BlockExecutor.noncesAgree_of_excused {x : BlockExecutor} {block : Block} {state : View}
    (h : Excused (x.rulings block state)) : x.NoncesAgree block state where
  transactions := x.map_transaction_rulings block state
  rejected := x.rejected_execute block state
  excused := h
  untroubled honly := by
    rw [x.rejected_execute, List.filterMap_eq_nil_iff]
    intro r hr
    rw [Ruling.entry?, h.reason?_eq_none honly r hr]
    rfl

/-- In every block of a scenario that leaves the nonces open a transaction is rejected for its
nonce only after another one of the same sender. -/
theorem Scenario.nonces_agree {s : Scenario} {p : ScenarioProgress} {withTraces : Bool}
    {report : ScenarioReport} (hrun : s.run withTraces = .ok report) (hexecute : s.execute = .ok p)
    (hfree : ∀ b ∈ s.blocks, ∀ t ∈ b.transactions, t.nonce = none)
    (hsenders : Unambiguous (p.blocks.flatMap (·.1.transactions)))
    (hseparate : ∀ executed ∈ p.blocks, ∀ run ∈ executed.2.runs, ∀ t ∈ executed.1.transactions,
      ¬run.1.Creates run.2 t.sender) :
    report.blocks.length = s.blocks.length ∧
      ∀ (i : Nat) (b : ScenarioBlock), s.blocks[i]? = some b →
        ∃ before transactions,
          ({ s with blocks := s.blocks.take i } : Scenario).execute = .ok before ∧
          b.sign before.view s.chain.chainId = .ok transactions ∧
          report.blocks[i]? = some (before.executed b transactions).2.result ∧
          before.executor.NoncesAgree (before.executed b transactions).1 before.view := by
  obtain ⟨p', hexecute', hreport⟩ := exists_of_bind hrun
  obtain rfl := Except.ok.inj (hexecute.symm.trans hexecute')
  obtain rfl := Except.ok.inj hreport
  obtain ⟨first, hstart, hfold⟩ := exists_of_bind hexecute
  obtain ⟨-, hnone, -⟩ := ScenarioProgress.chained_start hstart
  obtain ⟨more, hblocks, hcount⟩ := ScenarioProgress.exists_blocks hfold
  rw [hnone, List.nil_append] at hblocks
  refine ⟨?_, fun i b hb => ?_⟩
  · rw [List.length_map, hblocks, hcount]
  · obtain ⟨before, transactions, after, hbefore, hsigned, hsplit, hplace⟩ :=
      ScenarioProgress.exists_block hfold hb
    rw [hnone, List.length_nil, Nat.zero_add] at hplace
    have hmember : before.executed b transactions ∈ p.blocks := by
      rw [hsplit]
      exact List.mem_append_right _ List.mem_cons_self
    have hall : ∀ t ∈ transactions, t ∈ p.blocks.flatMap (·.1.transactions) :=
      fun t ht => List.mem_flatMap.mpr ⟨_, hmember, ht⟩
    have hunderway := (ScenarioProgress.underway_start hstart _).foldlM hsenders hbefore
      fun run hrun t ht => List.mem_flatMap.mpr
        ⟨run, by rw [hsplit]; exact List.mem_append_left _ hrun, ht⟩
    rw [hunderway.chain] at hsigned
    refine ⟨before, transactions, ?_, hsigned, ?_, BlockExecutor.noncesAgree_of_excused ?_⟩
    · change (s.start >>= fun first => (s.blocks.take i).foldlM step first) = _
      rw [hstart]
      exact hbefore
    · rw [List.getElem?_map, hsplit, List.getElem?_append_right (by omega), hplace, Nat.sub_self]
      rfl
    · refine BlockProgress.excused_rulings hunderway.passive hsenders hall
        (hfree b (List.mem_of_getElem? hb)) hsigned (fun _ ht => ht) hunderway.sound
        (hseparate _ hmember) ?_ excused_nil
      intro t _ _
      rw [View.nonce_push]
      rfl

/-- A sender without money, whose second transaction asks for some. -/
def Scenario.overdrawn : Scenario where
  chain := { ChainConfig.mainnet with limits.feeToProtocol := false }
  blocks := [{ transactions := [0, 1, 0].map fun value =>
    { secretKey := "a1a1a1a1a1a1a1a1a1a1a1a1a1a1a1a1a1a1a1a1a1a1a1a1a1a1a1a1a1a1a1a1"
      receiver := some Address.sample
      value
      gasLimit := 50000 } }]

/-- The third transaction is rejected for its nonce, after the second one was for its value. -/
theorem Scenario.nonces_agree_overdrawn :
    ∃ (before : ScenarioProgress) (b : ScenarioBlock) (transactions : List Transaction),
      before.executor.NoncesAgree (before.executed b transactions).1 before.view ∧
        (before.executed b transactions).2.result.rejected.map (·.reason) =
          [(Rejection.notEnoughCash 1 0).message, (Rejection.invalidNonce 1 2).message] := by
  have hfacts : ∃ p ∈ overdrawn.execute.toOption,
      (∀ s ∈ p.blocks.flatMap (·.1.transactions), ∀ t ∈ p.blocks.flatMap (·.1.transactions),
        s.sender = t.sender) ∧
        (∀ executed ∈ p.blocks, ∀ run ∈ executed.2.runs, run.1.transaction.isCreation = false) ∧
        p.blocks.map (·.2.result.rejected.map (·.reason)) =
          [[(Rejection.notEnoughCash 1 0).message, (Rejection.invalidNonce 1 2).message]] := by
    decide +kernel
  obtain ⟨p, hmember, hsender, hcalls, hreasons⟩ := hfacts
  have hexecute := eq_ok_of_mem_toOption hmember
  obtain ⟨report, hrun⟩ : ∃ report, overdrawn.run false = .ok report := by
    rw [run, hexecute]
    exact ⟨_, rfl⟩
  have hreport : report.blocks = p.blocks.map (·.2.result) := by
    rw [run, hexecute] at hrun
    rw [← Except.ok.inj hrun]
  obtain ⟨-, hblocks⟩ := nonces_agree hrun hexecute (by decide)
    (fun s hs t ht _ => hsender s hs t ht)
    (fun executed hexecuted run hmem t _ =>
      Job.not_creates_of_call (hcalls executed hexecuted run hmem))
  obtain ⟨before, transactions, -, -, hresult, hagree⟩ := hblocks 0 _ rfl
  refine ⟨before, _, transactions, hagree, ?_⟩
  have hfirst : (report.blocks.map fun result => result.rejected.map (·.reason))[0]? =
      some [(Rejection.notEnoughCash 1 0).message, (Rejection.invalidNonce 1 2).message] := by
    rw [hreport, List.map_map]
    exact congrArg (·[0]?) hreasons
  rw [List.getElem?_map, hresult] at hfirst
  exact Option.some.inj hfirst

end LedgerExec
