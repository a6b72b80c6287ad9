import LedgerExec.Proofs.Block.Coherence
import LedgerExec.Proofs.Execution.Arithmetic
import LedgerExec.Scenario
set_option autoImplicit false

/-!
# The chain that a scenario runs into

A scenario executes its blocks one on top of the other.  `ScenarioProgress.Chained` is what
each step keeps: the headers so far are linked, and the block index of the executor knows their
digests and no others.  The number of a block stops at the greatest one, so the step needs
room for one more (`Chained.step`).

A block-hash call is answered from the index that the executor has when its block begins,
which are the blocks below it.  So a number below the block's own is always found
(`ancestral_answer`), and what the run leaves is that answer (`Job.reports_of_builtIn`).
-/

namespace LedgerExec

/-! ## Links -/

/-- A header stands on its parent, at a number of the chain of a genesis. -/
structure Header.Extends (h parent genesis : Header) (number : Nat) : Prop where
  numbered : h.number.toNat = number
  linked : h.parentHash = parent.hash
  timestamp : parent.timestamp ≤ h.timestamp
  gasLimit : h.gasLimit = genesis.gasLimit

/-- The header of the next block stands on its parent, as long as there is a next number. -/
theorem ScenarioBlock.extends_header {genesis parent : Header} {number : Nat} (b : ScenarioBlock)
    (hparent : parent.number.toNat = number) (hroom : number + 1 < 2 ^ 64)
    (hgas : parent.gasLimit = genesis.gasLimit) :
    (b.header parent).Extends parent genesis (number + 1) where
  numbered := by
    change (Unsigned.addSat parent.number 1).toNat = _
    rw [Unsigned.toNat_addSat, hparent, Nat.one_shiftLeft]
    change min (number + 1) _ = _
    omega
  linked := rfl
  timestamp := by
    have hparent := parent.timestamp.isLt
    rw [Unsigned.le_iff]
    change _ ≤ (Unsigned.addSat parent.timestamp _).toNat
    rw [Unsigned.toNat_addSat]
    omega
  gasLimit := hgas

/-! ## What the index knows -/

namespace BlockIndex

/-- The index knows the digests of headers numbered from zero, and no others. -/
def Knows (b : BlockIndex) (headers : List Header) : Prop :=
  ∀ number : Height, b.hash? number = headers[number.toNat]?.map Header.hash

variable {b : BlockIndex} {headers : List Header} {h : Header}

theorem hash?_save (b : BlockIndex) (h : Header) (number : Height) :
    (b.save h).hash? number = if h.number = number then some h.hash else b.hash? number := by
  simp [save, hash?, Std.ExtTreeMap.getElem?_insert]

theorem knows_empty : Knows {} [] := fun _ => rfl

/-- The next header is known once it is saved. -/
theorem Knows.save (hknown : b.Knows headers) (hnumber : h.number.toNat = headers.length) :
    (b.save h).Knows (headers ++ [h]) := by
  intro number
  rw [hash?_save, hknown number, List.getElem?_append]
  split
  · rename_i hsame
    rw [← hsame, hnumber, if_neg (Nat.lt_irrefl _), Nat.sub_self]
    rfl
  · rename_i hother
    split
    · rfl
    · rename_i hbeyond
      have hplace : number.toNat ≠ headers.length := fun hlength =>
        hother (Unsigned.toNat_inj.mp (hnumber.trans hlength.symm))
      rw [List.getElem?_eq_none (by omega), List.getElem?_eq_none (by simp; omega)]

end BlockIndex

/-! ## The answers of the block-hash contract -/

namespace BuiltIn

/-- What the contract is to answer to data in a block of a number, whose ancestors are given from
the genesis on. -/
structure Ancestral (ancestors : List Header) (current : Height) (data : Bytes)
    (answer : Except BuiltInFault Bytes) : Prop where
  /-- more than 32 bytes, or a number that is no height -/
  invalid : 32 < data.length ∨ 2 ^ 64 ≤ Bytes.ofBigEndian data →
    ∃ reason, answer = .error (.invalidInput reason)
  /-- the block's own number or one above it -/
  above : data.length ≤ 32 → ∀ number : Height, Bytes.ofBigEndian data = number.toNat →
    current ≤ number → answer = .error (.notAnAncestor number current)
  /-- every number below the block's own -/
  found : data.length ≤ 32 → Bytes.ofBigEndian data < current.toNat →
    ∃ ancestor, ancestors[Bytes.ofBigEndian data]? = some ancestor ∧
      answer = .ok ancestor.hash.toBytes
  /-- no ancestor is missing -/
  known : ∀ number, answer ≠ .error (.blockNotFound number)

/-- The number that data spells. -/
theorem blockNumber_cases (data : Bytes) :
    (32 < data.length ∨ 2 ^ 64 ≤ Bytes.ofBigEndian data) ∧
        (∃ reason, blockNumber data = .error (.invalidInput reason)) ∨
      data.length ≤ 32 ∧
        ∃ number : Height, Bytes.ofBigEndian data = number.toNat ∧ blockNumber data = .ok number := by
  unfold blockNumber
  split
  · rename_i hlong
    exact .inl ⟨.inl hlong, _, rfl⟩
  · rename_i hshort
    cases hnumber : Unsigned.ofNat? 64 (Bytes.ofBigEndian data) with
    | some number =>
        exact .inr ⟨Nat.le_of_not_lt hshort, number, (Unsigned.toNat_of_ofNat? hnumber).symm, rfl⟩
    | none =>
        refine .inl ⟨.inr ?_, _, rfl⟩
        unfold Unsigned.ofNat? at hnumber
        split at hnumber
        · cases hnumber
        · rename_i hbeyond
          exact Nat.le_of_not_lt hbeyond

/-- In a block whose ancestors are what the index knows. -/
theorem ancestral_answer (env : BuiltInEnv) {ancestors : List Header}
    (hknown : env.blocks.Knows ancestors) (hnumber : env.block.number.toNat = ancestors.length)
    (data : Bytes) :
    Ancestral ancestors env.block.number data (blockHash.answer (some env) data) := by
  have hanswer : blockHash.answer (some env) data =
      (blockNumber data).bind fun number =>
        if env.block.number ≤ number then .error (.notAnAncestor number env.block.number)
        else (env.blocks.hash? number).elim (.error (.blockNotFound number))
          fun hash => .ok hash.toBytes := by
    refine congrArg (Except.bind (blockNumber data)) (funext fun number => ?_)
    cases hhash : env.blocks.hash? number <;> simp [hhash]
  rcases blockNumber_cases data with ⟨hinvalid, reason, hread⟩ | ⟨hshort, number, hspells, hread⟩
  · rw [hanswer, hread]
    exact
      { invalid := fun _ => ⟨reason, rfl⟩
        above := fun hshort number hspells => by
          have hheight := number.isLt
          rw [Nat.one_shiftLeft] at hheight
          omega
        found := fun hshort hbelow => by
          have hheight := env.block.number.isLt
          rw [Nat.one_shiftLeft] at hheight
          omega
        known := fun _ => by simp [Except.bind] }
  · have hheight := number.isLt
    rw [Nat.one_shiftLeft] at hheight
    rw [hanswer, hread, Except.bind, hknown number, ← hspells]
    split
    · rename_i habove
      exact
        { invalid := fun hinvalid => by omega
          above := fun _ other hother _ => by
            rw [hspells, Unsigned.toNat_inj] at hother
            rw [hother]
          found := fun _ hbelow => by
            rw [Unsigned.le_iff] at habove
            omega
          known := fun _ => by simp }
    · rename_i hbelow
      rw [Unsigned.le_iff] at hbelow
      have hplace : Bytes.ofBigEndian data < ancestors.length := by omega
      rw [List.getElem?_eq_getElem hplace]
      exact
        { invalid := fun hinvalid => by omega
          above := fun _ other hother habove => by
            rw [Unsigned.le_iff] at habove
            omega
          found := fun _ _ => ⟨_, List.getElem?_eq_getElem hplace, rfl⟩
          known := fun _ => by simp }

end BuiltIn

/-! ## Calls of a built-in contract -/

/-- The result of a run is the output of an answer, or its failure the fault of one. -/
def RunResult.Reports (r : RunResult) : Except BuiltInFault Bytes → Prop
  | .ok output => r.output = output
  | .error fault => r.fault = some (.builtIn fault.message)

theorem RunResult.Reports.congr {r r' : RunResult} {answer : Except BuiltInFault Bytes}
    (h : r.Reports answer) (houtput : r'.output = r.output) (hfault : r'.fault = r.fault) :
    r'.Reports answer := by
  cases answer with
  | ok output => exact houtput.trans h
  | error fault => exact hfault.trans h

theorem RunResult.Reports.spend {r : RunResult} {answer : Except BuiltInFault Bytes}
    (h : r.Reports answer) (gas : Gas) : (r.spend gas).Reports answer := h.congr rfl rfl

theorem RunResult.Reports.creditDestroyed {r : RunResult} {answer : Except BuiltInFault Bytes}
    (h : r.Reports answer) : (Job.creditDestroyed r).Reports answer :=
  h.congr (Job.output_creditDestroyed r) (Job.fault_creditDestroyed r)

namespace Job

variable {j : Job} {e : Execution} {outer : View} {senders : SenderCache} {address : Address}
  {contract : BuiltIn} {answer : Except BuiltInFault Bytes}

/-- What a built-in contract answers to the data of the transaction. -/
def answerOf (j : Job) (contract : BuiltIn) : Except BuiltInFault Bytes :=
  contract.answer (some j.environment) j.transaction.payload.data

/-- Whether the gas limit covers a call of a built-in contract. -/
def Covers (j : Job) (contract : BuiltIn) : Prop :=
  j.context.gasRules.hasEnough j.transaction.gasLimit (j.required contract)
    (Gas.add (j.required contract) j.basicCost) = true

instance (j : Job) (contract : BuiltIn) : Decidable (j.Covers contract) :=
  inferInstanceAs (Decidable (_ = true))

/-- A run without a program has come to what a built-in contract has answered. -/
structure Answered (answer : Except BuiltInFault Bytes) (e : Execution) : Prop where
  program : e.program = none
  reports : e.result.Reports answer

theorem consult_eq (j : Job) (e : Execution) (address : Address) (contract : BuiltIn) :
    j.consult e address contract =
      match j.answerOf contract with
      | .ok output =>
        { e with
          subtraces := contract.subtracesIn j.environment j.transaction.payload.data
          result := { e.result with output } }.within (adopt address)
      | .error fault => { e with result := e.result.fail (.builtIn fault.message) } := rfl

theorem answered_consult (hprogram : e.program = none) (address : Address) (contract : BuiltIn) :
    Answered (j.answerOf contract) (j.consult e address contract) := by
  rw [consult_eq]
  cases j.answerOf contract with
  | ok output => exact ⟨hprogram, rfl⟩
  | error fault => exact ⟨hprogram, rfl⟩

theorem answered_answer (hprogram : e.program = none) (address : Address) (contract : BuiltIn)
    (used : Gas) : Answered (j.answerOf contract) (j.answer e address contract used) := by
  have htaken : (j.takeGas { e with rentLeft := j.transaction.rentGasLimit } used).program =
      none := by
    unfold takeGas
    split <;> exact hprogram
  have hconsulted := answered_consult (j := j) htaken address contract
  exact ⟨hconsulted.program, hconsulted.reports.spend used⟩

/-- Moving the value fails a run at most, and only one that has not failed. -/
theorem Answered.moveValue (h : Answered answer e) (target : Address) :
    Answered answer (j.moveValue e target) := by
  unfold Job.moveValue
  split
  · exact h
  · rename_i hclean
    split
    · exact ⟨h.program, h.reports⟩
    · refine ⟨rfl, ?_⟩
      cases answer with
      | ok output => exact h.reports
      | error fault =>
          have hfault : e.result.fault = some (.builtIn fault.message) := h.reports
          rw [hfault] at hclean
          exact absurd rfl hclean

/-- An accepted transaction that has paid its price and covers its call comes to what the built-in
contract answers. -/
theorem reports_of_builtIn (hchain : j.isLocal = false)
    (haccepted : (j.execute outer senders).accepted = true)
    (hprepaid : (j.execute outer senders).prepaid = true)
    (hdispatch : j.dispatch outer = .builtIn address contract) (hcovers : j.Covers contract) :
    (j.execute outer senders).result.Reports (j.answerOf contract) := by
  obtain ⟨paid, hdebit⟩ := debit_of_prepaid hchain haccepted hprepaid
  have hrun := run_of_paid hchain hdebit (j.validate outer senders).2
  have hanswered : Answered (j.answerOf contract)
      (j.run { outer, senders := (j.validate outer senders).2 }) := by
    have hcall (e : Execution) : j.callBuiltIn e address contract =
        j.moveValue (j.answer e address contract (Gas.add (j.required contract) j.basicCost))
          address := by
      simp only [callBuiltIn, Covers] at hcovers ⊢
      rw [hcovers]
      simp
    rw [hrun, perform, dispatch_of_builtIn hdispatch]
    change Answered _ (j.callBuiltIn _ address contract)
    rw [hcall]
    exact (answered_answer rfl address contract _).moveValue address
  have hplayed : (j.played outer (j.validate outer senders).2).result =
      (j.run { outer, senders := (j.validate outer senders).2 }).result := by
    rw [played, complete, hanswered.program]
    rfl
  have hresult : (j.execute outer senders).result =
      creditDestroyed (j.run { outer, senders := (j.validate outer senders).2 }).result := by
    rw [execute_of_accepted haccepted, finalize_on_chain hchain, hplayed]
  rw [hresult]
  exact hanswered.reports.creditDestroyed

/-- A transaction to the address of the block-hash contract calls it where its upgrade is active. -/
theorem dispatch_blockHash (hregistry : j.context.registry = Registry.standard)
    (hactive : j.context.active.has .blockHashBuiltIn = true)
    (hreceiver : j.transaction.receiver? = some BuiltIn.blockHashAddress) (outer : View) :
    j.dispatch outer = .builtIn BuiltIn.blockHashAddress BuiltIn.blockHash := by
  have hentry : Registry.standard.entries[BuiltIn.blockHashAddress]? =
      some { contract := BuiltIn.blockHash, upgrade := some .blockHashBuiltIn } := by
    simp [Registry.standard, Registry.register]
  have hcontract : j.context.registry.contract? j.context.active BuiltIn.blockHashAddress =
      some BuiltIn.blockHash := by
    rw [hregistry, Registry.contract?, hentry]
    exact if_pos hactive
  rw [dispatch, hreceiver]
  simp only [hcontract]

end Job

/-! ## Running a scenario -/

theorem Genesis.header_of_build {g : Genesis} {built : Header × View} (h : g.build = .ok built) :
    built.1 = g.header := by
  obtain ⟨v, -, hbuilt⟩ := exists_of_bind h
  obtain rfl := Except.ok.inj hbuilt
  rfl

namespace ScenarioProgress

/-- The headers of a run by number: the genesis and the blocks executed so far. -/
def headers (p : ScenarioProgress) (genesis : Header) : List Header :=
  genesis :: p.blocks.map (·.1.header)

/-- What the next block adds, once its transactions are signed. -/
def next (p : ScenarioProgress) (b : ScenarioBlock) (transactions : List Transaction) :
    ScenarioProgress where
  executor := (p.executor.execute ⟨b.header p.parent, transactions⟩ p.view).executor
  parent := b.header p.parent
  view := (p.executor.execute ⟨b.header p.parent, transactions⟩ p.view).view
  blocks := p.blocks ++
    [(⟨b.header p.parent, transactions⟩,
      p.executor.execute ⟨b.header p.parent, transactions⟩ p.view)]

theorem exists_next {p q : ScenarioProgress} {b : ScenarioBlock} (hstep : Scenario.step p b = .ok q) :
    ∃ transactions, b.sign p.view p.executor.chain.chainId = .ok transactions ∧
      q = p.next b transactions := by
  obtain ⟨transactions, hsigned, hnext⟩ := exists_of_bind hstep
  exact ⟨transactions, hsigned, (Except.ok.inj hnext).symm⟩

theorem headers_next (p : ScenarioProgress) (b : ScenarioBlock) (transactions : List Transaction)
    (genesis : Header) :
    (p.next b transactions).headers genesis = p.headers genesis ++ [b.header p.parent] := by
  simp [headers, next]

theorem length_headers (p : ScenarioProgress) (genesis : Header) :
    (p.headers genesis).length = p.blocks.length + 1 := by
  simp [headers]

end ScenarioProgress

/-- An executor of a chain with the contracts of the protocol, which knows certain headers. -/
structure BlockExecutor.Stands (x : BlockExecutor) (chain : ChainConfig) (headers : List Header) :
    Prop where
  chain : x.chain = chain
  registry : x.registry = Registry.standard
  known : x.blocks.Knows headers

/-- A block and its outcome, on top of the headers of a chain. -/
structure Block.Placed (block : Block) (outcome : BlockOutcome) (chain : ChainConfig)
    (ancestors : List Header) (genesis : Header) : Prop where
  linked : ∃ parent, ancestors.getLast? = some parent ∧
    block.header.Extends parent genesis ancestors.length
  executed : ∃ (x : BlockExecutor) (view : View), x.Stands chain ancestors ∧
    outcome = x.execute block view

/-- How far a scenario has come: the headers are linked, and the executor knows them. -/
structure ScenarioProgress.Chained (chain : ChainConfig) (genesis : Header) (p : ScenarioProgress) :
    Prop where
  executor : p.executor.Stands chain (p.headers genesis)
  parent : (p.headers genesis).getLast? = some p.parent
  numbered : p.parent.number.toNat = p.blocks.length
  gasLimit : p.parent.gasLimit = genesis.gasLimit
  placed : ∀ (i : Nat) (run : Block × BlockOutcome), p.blocks[i]? = some run →
    run.1.Placed run.2 chain ((p.headers genesis).take (i + 1)) genesis

namespace ScenarioProgress

variable {chain : ChainConfig} {genesis : Header} {p q : ScenarioProgress}

/-- The genesis alone. -/
theorem chained_start {s : Scenario} (hstart : s.start = .ok p) :
    (∃ v, s.genesis.build = .ok (s.genesis.header, v)) ∧ p.blocks = [] ∧
      p.Chained s.chain s.genesis.header := by
  obtain ⟨⟨genesis, v⟩, hmapped, hfirst⟩ := exists_of_bind hstart
  have hbuilt : s.genesis.build = .ok (genesis, v) := by
    cases hbuild : s.genesis.build with
    | error fault =>
        rw [hbuild] at hmapped
        cases hmapped
    | ok built =>
        rw [hbuild] at hmapped
        rw [Except.ok.inj hmapped]
  obtain rfl : genesis = s.genesis.header := Genesis.header_of_build hbuilt
  obtain rfl := Except.ok.inj hfirst
  refine ⟨⟨v, hbuilt⟩, rfl, ?_⟩
  exact
    { executor :=
        { chain := rfl
          registry := rfl
          known := BlockIndex.knows_empty.save rfl }
      parent := rfl
      numbered := rfl
      gasLimit := rfl
      placed := fun i run hrun => by cases hrun }

/-- One more block, as long as there is a next number. -/
theorem Chained.next (h : p.Chained chain genesis) (hroom : p.blocks.length + 1 < 2 ^ 64)
    (b : ScenarioBlock) (transactions : List Transaction) :
    (p.next b transactions).Chained chain genesis := by
  have hextends := b.extends_header h.numbered hroom h.gasLimit
  -- the ancestors of a block that is there already stay the same
  have hplaced (i : Nat) (hi : i ≤ p.blocks.length) :
      ((p.next b transactions).headers genesis).take (i + 1) =
        (p.headers genesis).take (i + 1) := by
    rw [headers_next, List.take_append_of_le_length (by rw [length_headers]; omega)]
  exact
    { executor :=
        { chain := h.executor.chain
          registry := h.executor.registry
          known := by
            rw [headers_next]
            refine h.executor.known.save ?_
            rw [length_headers]
            exact hextends.numbered }
      parent := by
        rw [headers_next, List.getLast?_concat]
        rfl
      numbered := by
        rw [ScenarioProgress.next, List.length_append]
        exact hextends.numbered
      gasLimit := hextends.gasLimit
      placed := by
        refine forall_getElem?_concat (fun i run hrun => ?_) ?_
        · have hi := (List.getElem?_eq_some_iff.mp hrun).1
          rw [hplaced i (Nat.le_of_lt hi)]
          exact h.placed i run hrun
        · have hall : (p.headers genesis).take (p.blocks.length + 1) = p.headers genesis := by
            rw [← length_headers p genesis, List.take_length]
          rw [hplaced _ (Nat.le_refl _), hall]
          exact
            { linked := ⟨p.parent, h.parent, by rw [length_headers]; exact hextends⟩
              executed := ⟨p.executor, p.view, h.executor, rfl⟩ } }

/-- All blocks. -/
theorem Chained.foldlM {blocks : List ScenarioBlock} (h : p.Chained chain genesis)
    (hroom : p.blocks.length + blocks.length < 2 ^ 64)
    (hrun : blocks.foldlM Scenario.step p = .ok q) :
    q.Chained chain genesis ∧ q.blocks.length = p.blocks.length + blocks.length := by
  induction blocks generalizing p with
  | nil =>
      obtain rfl := Except.ok.inj hrun
      exact ⟨h, rfl⟩
  | cons b rest ih =>
      rw [List.foldlM_cons] at hrun
      rw [List.length_cons] at hroom ⊢
      obtain ⟨next, hstep, hrest⟩ := exists_of_bind hrun
      obtain ⟨transactions, -, rfl⟩ := exists_next hstep
      have hlength : (p.next b transactions).blocks.length = p.blocks.length + 1 := by
        simp [ScenarioProgress.next]
      obtain ⟨hchained, htotal⟩ := ih (h.next (by omega) b transactions) (by omega) hrest
      exact ⟨hchained, by omega⟩

end ScenarioProgress

/-! ## What is known of the chain -/

/-- A run of a block on a chain, as far as a call of the block-hash contract goes. -/
structure AnswersAncestors (headers : List Header) (block : Header) (run : Job × Execution) :
    Prop where
  shown : run.1.context.block = block
  /-- the contract is called whatever the state -/
  called : ∀ v, run.1.dispatch v = .builtIn BuiltIn.blockHashAddress BuiltIn.blockHash
  answer : BuiltIn.Ancestral headers block.number run.1.transaction.payload.data
    (run.1.answerOf BuiltIn.blockHash)
  /-- once the price is taken and the limit covers the call, the answer is what the run leaves -/
  reports : run.2.prepaid = true → run.1.Covers BuiltIn.blockHash →
    run.2.result.Reports (run.1.answerOf BuiltIn.blockHash)

/-- What stands at a place of the beginning of a list stands there in the list. -/
theorem getElem?_of_take {α : Type} {l : List α} {count place : Nat} {x : α}
    (h : (l.take count)[place]? = some x) : l[place]? = some x := by
  rw [List.getElem?_take] at h
  split at h
  · exact h
  · cases h

/-- Ancestors are found in any chain that begins with them. -/
theorem BuiltIn.Ancestral.of_take {headers : List Header} {current : Height} {data : Bytes}
    {answer : Except BuiltInFault Bytes} {count : Nat}
    (h : Ancestral (headers.take count) current data answer) :
    Ancestral headers current data answer where
  invalid := h.invalid
  above := h.above
  found hshort hbelow := by
    obtain ⟨ancestor, hancestor, hanswer⟩ := h.found hshort hbelow
    exact ⟨ancestor, getElem?_of_take hancestor, hanswer⟩
  known := h.known

/-- A transaction to the block-hash contract in a block whose upgrade is active. -/
theorem Block.Placed.answers {block : Block} {outcome : BlockOutcome} {chain : ChainConfig}
    {ancestors : List Header} {genesis : Header}
    (h : block.Placed outcome chain ancestors genesis) {run : Job × Execution}
    (hrun : run ∈ outcome.runs)
    (hreceiver : run.1.transaction.receiver? = some BuiltIn.blockHashAddress)
    (hactive : (chain.upgrades.atHeight block.header.number).has .blockHashBuiltIn = true) :
    AnswersAncestors ancestors block.header run := by
  obtain ⟨x, view, hstands, rfl⟩ := h.executed
  obtain ⟨parent, -, hextends⟩ := h.linked
  obtain ⟨i, hplace⟩ := List.getElem?_of_mem hrun
  have hexecuted := (BlockProgress.coherent_foldl (x.context block.header) view.push x.senders
    block.transactions).executed i run hplace
  obtain ⟨v, senders, hexecution⟩ := hexecuted.execution
  have hcontext := hexecuted.context
  have haccepted := hexecuted.accepted
  have hregistry : run.1.context.registry = Registry.standard := by
    rw [hcontext]
    exact hstands.registry
  have hrule : run.1.context.active.has .blockHashBuiltIn = true := by
    rw [hcontext]
    change (x.chain.upgrades.atHeight block.header.number).has .blockHashBuiltIn = true
    rw [hstands.chain]
    exact hactive
  have hshown : run.1.context.block = block.header := by
    rw [hcontext]
    rfl
  have hknown : run.1.context.blocks.Knows ancestors := by
    rw [hcontext]
    exact hstands.known
  have hdispatch := Job.dispatch_blockHash hregistry hrule hreceiver
  refine ⟨hshown, hdispatch, ?_, fun hprepaid hcovers => ?_⟩
  · have hnumber : run.1.environment.block.number.toNat = ancestors.length := by
      change run.1.context.block.number.toNat = _
      rw [hshown]
      exact hextends.numbered
    rw [← hshown]
    exact BuiltIn.ancestral_answer run.1.environment hknown hnumber _
  · rw [hexecution] at haccepted hprepaid ⊢
    exact Job.reports_of_builtIn hexecuted.on_chain haccepted hprepaid (hdispatch v) hcovers

/-- The blocks of a run on their genesis: each stands on the one before it, its result carries its
digest, and the block-hash contract finds its ancestors. -/
structure ScenarioProgress.Linked (p : ScenarioProgress) (chain : ChainConfig) (genesis : Header) :
    Prop where
  extends_parent : ∀ (i : Nat) (run : Block × BlockOutcome), p.blocks[i]? = some run →
    ∃ parent, (p.headers genesis)[i]? = some parent ∧
      run.1.header.Extends parent genesis (i + 1)
  digest : ∀ run : Block × BlockOutcome, run ∈ p.blocks →
    run.2.result.block = run.1.header.hash
  answers : ∀ block outcome, (block, outcome) ∈ p.blocks → ∀ run ∈ outcome.runs,
    run.1.transaction.receiver? = some BuiltIn.blockHashAddress →
    (chain.upgrades.atHeight block.header.number).has .blockHashBuiltIn = true →
      AnswersAncestors (p.headers genesis) block.header run

theorem ScenarioProgress.Chained.linked {p : ScenarioProgress} {chain : ChainConfig}
    {genesis : Header} (h : p.Chained chain genesis) : p.Linked chain genesis where
  extends_parent i run hrun := by
    obtain ⟨parent, hparent, hextends⟩ := (h.placed i run hrun).linked
    have hi := (List.getElem?_eq_some_iff.mp hrun).1
    have hcount : ((p.headers genesis).take (i + 1)).length = i + 1 := by
      rw [List.length_take, length_headers]
      omega
    rw [hcount] at hextends
    rw [List.getLast?_eq_getElem?, hcount] at hparent
    exact ⟨parent, getElem?_of_take hparent, hextends⟩
  digest run hrun := by
    obtain ⟨i, hplace⟩ := List.getElem?_of_mem hrun
    obtain ⟨x, view, -, houtcome⟩ := (h.placed i run hplace).executed
    rw [houtcome]
    rfl
  answers block outcome hblock run hrun hreceiver hactive := by
    obtain ⟨i, hplace⟩ := List.getElem?_of_mem hblock
    have hanswers := (h.placed i (block, outcome) hplace).answers hrun hreceiver hactive
    exact { hanswers with answer := hanswers.answer.of_take }

/-- Every scenario that runs is a chain of blocks on its genesis.  The list of its blocks is
shorter than the range of their numbers. -/
theorem Scenario.linked_of_run {s : Scenario} {withTraces : Bool} {report : ScenarioReport}
    (hrun : s.run withTraces = .ok report) (hlength : s.blocks.length < 2 ^ 64) :
    ∃ v p, s.genesis.build = .ok (s.genesis.header, v) ∧ s.execute = .ok p ∧
      p.blocks.length = s.blocks.length ∧ report.blocks = p.blocks.map (·.2.result) ∧
      p.Linked s.chain s.genesis.header := by
  obtain ⟨p, hexecute, hreport⟩ := exists_of_bind hrun
  obtain ⟨first, hstart, hfold⟩ := exists_of_bind hexecute
  obtain ⟨⟨v, hbuilt⟩, hnone, hchained⟩ := ScenarioProgress.chained_start hstart
  obtain ⟨hchained, hcount⟩ := hchained.foldlM (by rw [hnone, List.length_nil]; omega) hfold
  rw [hnone, List.length_nil, Nat.zero_add] at hcount
  obtain rfl := Except.ok.inj hreport
  exact ⟨v, p, hbuilt, hexecute, hcount, rfl, hchained.linked⟩

/-- Two blocks, of which the second has another coinbase and asks for the digest of the first. -/
def Scenario.sample : Scenario where
  chain := { ChainConfig.mainnet with limits.feeToProtocol := false }
  blocks :=
    [ {},
      { coinbase := some (Octets.ofNat .address 8)
        transactions :=
          [ { secretKey := "a1a1a1a1a1a1a1a1a1a1a1a1a1a1a1a1a1a1a1a1a1a1a1a1a1a1a1a1a1a1a1a1"
              receiver := some BuiltIn.blockHashAddress
              gasLimit := 50000
              data := "01" } ] } ]

theorem Scenario.linked_sample :
    ∃ p block run ancestor, Scenario.sample.execute = .ok p ∧ p.blocks[1]? = some block ∧
      run ∈ block.2.runs ∧ (p.headers Genesis.empty.header)[1]? = some ancestor ∧
      run.2.result.output = ancestor.hash.toBytes := by
  have hfacts : ∃ p ∈ sample.execute.toOption, ∃ block ∈ p.blocks[1]?, ∃ run ∈ block.2.runs,
      run.1.transaction.receiver? = some BuiltIn.blockHashAddress ∧
        (sample.chain.upgrades.atHeight block.1.header.number).has .blockHashBuiltIn = true ∧
        run.1.transaction.payload.data = [1] ∧ block.1.header.number = 2 ∧
        run.2.prepaid = true ∧ run.1.Covers BuiltIn.blockHash := by
    decide +kernel
  obtain ⟨p, hexecute, block, hblock, run, hmem, hreceiver, hactive, hdata, hnumber, hprepaid,
    hcovers⟩ := hfacts
  have hexecute : sample.execute = .ok p := by
    cases hresult : sample.execute with
    | error fault =>
        rw [hresult] at hexecute
        cases hexecute
    | ok p' =>
        rw [hresult] at hexecute
        rw [Option.some.inj hexecute]
  obtain ⟨report, hrun⟩ : ∃ report, sample.run false = .ok report := by
    rw [Scenario.run, hexecute]
    exact ⟨_, rfl⟩
  obtain ⟨v, p', -, hexecute', -, -, hlinked⟩ := linked_of_run hrun (by decide)
  obtain rfl := Except.ok.inj (hexecute.symm.trans hexecute')
  have hanswers := hlinked.answers block.1 block.2 (List.mem_of_getElem? hblock) run hmem hreceiver
    hactive
  have hfound := hanswers.answer.found
  rw [hdata, hnumber] at hfound
  obtain ⟨ancestor, hancestor, hanswer⟩ := hfound (by decide) (by decide)
  have hreports := hanswers.reports hprepaid hcovers
  rw [hanswer] at hreports
  exact ⟨p, block, run, ancestor, hexecute, hblock, hmem, hancestor, hreports⟩

end LedgerExec
