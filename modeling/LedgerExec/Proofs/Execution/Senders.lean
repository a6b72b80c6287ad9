import LedgerExec.Proofs.Execution.Charged
set_option autoImplicit false

/-!
# What the cache of senders decides

Nothing, as long as what it keeps is right.  No phase of an execution reads the cache
that it carries (`played_withSenders`), and validation reads from a sound cache what it
would find out without one.  So two executions that start from sound caches differ in
their caches alone (`execute_eq_of_sound`), however much either has forgotten, and the
caches stay sound (`sound_execute`).
-/

namespace LedgerExec

/-- Transactions of one digest have one sender. -/
def Unambiguous (transactions : List Transaction) : Prop :=
  ∀ s ∈ transactions, ∀ t ∈ transactions, s.hash = t.hash → s.sender = t.sender

/-! ## Sound caches -/

namespace SenderCache

variable {c : SenderCache} {transactions : List Transaction} {t : Transaction}

/-- Whatever is kept under the digest of one of the transactions is its sender. -/
def Sound (c : SenderCache) (transactions : List Transaction) : Prop :=
  ∀ entry ∈ c.entries, ∀ t ∈ transactions, entry.1 = t.hash → entry.2 = t.sender

theorem sound_of_empty (hempty : c.entries = []) (transactions : List Transaction) :
    c.Sound transactions := by
  intro entry hentry
  rw [hempty] at hentry
  exact nomatch hentry

/-- Keeping one more sender drops others at most. -/
theorem Sound.store (h : c.Sound transactions) (hsenders : Unambiguous transactions)
    (ht : t ∈ transactions) : (c.store t).Sound transactions := by
  intro entry hentry s hs hhash
  rcases List.mem_cons.mp (List.mem_of_mem_take hentry) with rfl | hold
  · exact hsenders t ht s hs hhash
  · exact h entry (List.mem_filter.mp hold).1 s hs hhash

/-- A sound cache gives the sender, and keeps it. -/
theorem Sound.sender (h : c.Sound transactions) (ht : t ∈ transactions) :
    c.sender t = (t.sender, c.store t) := by
  cases hfound : c.entries.find? (·.1 = t.hash) with
  | none => simp [SenderCache.sender, find?, hfound]
  | some entry =>
      have hhash : entry.1 = t.hash := by simpa using List.find?_some hfound
      have hsender := h entry (List.mem_of_find?_eq_some hfound) t ht hhash
      simp [SenderCache.sender, find?, hfound, hsender, SenderCache.store]

end SenderCache

/-! ## Executions with another cache -/

/-- The execution with another cache. -/
def Execution.withSenders (e : Execution) (senders : SenderCache) : Execution := { e with senders }

namespace Job

variable (j : Job) (e : Execution) (p : Play) (senders : SenderCache)

@[simp] theorem outer_withSenders : (e.withSenders senders).outer = e.outer := rfl

@[simp] theorem inside_withSenders : (e.withSenders senders).inside = e.inside := rfl

@[simp] theorem result_withSenders : (e.withSenders senders).result = e.result := rfl

/-! ### The first phase -/

theorem prepay_withSenders :
    j.prepay (e.withSenders senders) = (j.prepay e).withSenders senders := by
  simp only [prepay, outer_withSenders]
  cases (e.outer.raiseNonce j.transaction.sender).debit j.transaction.sender j.prepayment <;> rfl

theorem moveValue_withSenders (target : Address) :
    j.moveValue (e.withSenders senders) target =
      (j.moveValue e target).withSenders senders := by
  cases hfault : e.result.fault.isSome with
  | true => simp [moveValue, hfault]
  | false =>
      cases htransfer :
          e.inside.transfer j.transaction.sender target j.transaction.payload.value <;>
        simp only [moveValue, result_withSenders, inside_withSenders, hfault, htransfer] <;> rfl

theorem create_withSenders (address : Address) :
    j.create (e.withSenders senders) address = (j.create e address).withSenders senders := by
  unfold create
  split
  · exact j.moveValue_withSenders
      (j.chargeBasic ({ e with newContract := some address }.within (·.create address)))
      senders address
  · exact j.moveValue_withSenders
      (j.prepare
        (({ e with newContract := some address }.within (·.create address)).within
          (·.setUpContract address))
        address j.transaction.payload.data)
      senders address

theorem takeGas_withSenders (used : Gas) :
    j.takeGas (e.withSenders senders) used = (j.takeGas e used).withSenders senders := by
  simp only [takeGas]
  cases j.context.gasRules.sub j.transaction.gasLimit used <;> rfl

theorem consult_withSenders (address : Address) (contract : BuiltIn) :
    j.consult (e.withSenders senders) address contract =
      (j.consult e address contract).withSenders senders := by
  simp only [consult]
  split <;> rfl

theorem answer_withSenders (address : Address) (contract : BuiltIn) (used : Gas) :
    j.answer (e.withSenders senders) address contract used =
      (j.answer e address contract used).withSenders senders := by
  have htaken :
      j.takeGas { e.withSenders senders with rentLeft := j.transaction.rentGasLimit } used =
        (j.takeGas { e with rentLeft := j.transaction.rentGasLimit } used).withSenders senders :=
    j.takeGas_withSenders { e with rentLeft := j.transaction.rentGasLimit } senders used
  simp only [answer, htaken, consult_withSenders]
  rfl

theorem callBuiltIn_withSenders (address : Address) (contract : BuiltIn) :
    j.callBuiltIn (e.withSenders senders) address contract =
      (j.callBuiltIn e address contract).withSenders senders := by
  simp only [callBuiltIn, answer_withSenders, moveValue_withSenders]
  split <;> rfl

theorem perform_withSenders :
    j.perform (e.withSenders senders) = (j.perform e).withSenders senders := by
  simp only [perform, outer_withSenders]
  cases j.dispatch e.outer with
  | creation address => exact j.create_withSenders e senders address
  | builtIn address contract => exact j.callBuiltIn_withSenders e senders address contract
  | program address code =>
      exact j.moveValue_withSenders (j.prepare e address code) senders address
  | plain address => exact j.moveValue_withSenders (j.chargeBasic e) senders address

theorem run_withSenders : j.run (e.withSenders senders) = (j.run e).withSenders senders := by
  have hprepaid : ((j.prepay e).withSenders senders).prepaid = (j.prepay e).prepaid := rfl
  simp only [run, prepay_withSenders, hprepaid, perform_withSenders]
  split
  · rfl
  · split <;> rfl

/-! ### The second phase -/

/-- Playing with another cache. -/
def Play.withSenders (p : Play) (senders : SenderCache) : Play :=
  { p with execution := p.execution.withSenders senders }

@[simp] theorem program_withSenders : (p.withSenders senders).program = p.program := rfl

@[simp] theorem outcome_withSenders : (p.withSenders senders).outcome = p.outcome := rfl

theorem deposit_withSenders (address : Address) :
    j.deposit (p.withSenders senders) address =
      (j.deposit p address).withSenders senders := by
  have hleft : (p.withSenders senders).execution.gasLeft = p.execution.gasLeft := rfl
  simp only [deposit, program_withSenders, hleft]
  split
  · rfl
  · split
    · rfl
    · cases Gas.sub p.execution.gasLeft
          (Gas.mul Gas.perCodeByte (Unsigned.clamp 64 p.program.result.output.length)) with
      | error fault => rfl
      | ok left =>
          dsimp only
          cases p.program.charge
            (Gas.mul Gas.perCodeByte (Unsigned.clamp 64 p.program.result.output.length))
            "CONTRACT DATA COST" <;> rfl

theorem depositNew_withSenders :
    j.depositNew (p.withSenders senders) = (j.depositNew p).withSenders senders := by
  have hnew : (p.withSenders senders).execution.newContract = p.execution.newContract := rfl
  simp only [depositNew, program_withSenders, hnew, deposit_withSenders]
  cases p.execution.newContract with
  | none => rfl
  | some address => cases p.program.result.reverted <;> rfl

theorem conclude_withSenders :
    conclude (p.withSenders senders) = (conclude p).withSenders senders := by
  cases hended : p.program.result.fault.isSome || p.program.result.reverted with
  | false => simp [conclude, hended]
  | true =>
      simp only [conclude, program_withSenders, hended, if_true]
      cases p.program.result.fault <;> rfl

theorem wrapUp_withSenders :
    j.wrapUp (p.withSenders senders) = (j.wrapUp p).withSenders senders := by
  simp only [wrapUp, depositNew_withSenders, outcome_withSenders, conclude_withSenders]
  cases (j.depositNew p).outcome <;> rfl

theorem interpret_withSenders (program : Program) :
    j.interpret (e.withSenders senders) program =
      (j.interpret e program).withSenders senders := by
  unfold interpret
  split <;> rfl

theorem afterInterpreter_withSenders :
    j.afterInterpreter (p.withSenders senders) =
      (j.afterInterpreter p).withSenders senders := by
  simp only [afterInterpreter, program_withSenders]
  cases Gas.sub j.transaction.gasLimit p.program.result.gasUsed with
  | error fault => rfl
  | ok left =>
      exact j.wrapUp_withSenders { p with execution := { p.execution with gasLeft := left } }
        senders

theorem play_withSenders (program : Program) :
    j.play (e.withSenders senders) program = (j.play e program).withSenders senders := by
  simp only [play, interpret_withSenders, afterInterpreter_withSenders]
  cases program.charge j.basicCost "TRANSACTION COST" <;> rfl

theorem keepRefused_withSenders :
    keepRefused (e.withSenders senders) = (keepRefused e).withSenders senders := by
  have hrefused : (e.withSenders senders).depositRefused = e.depositRefused := rfl
  have hnew : (e.withSenders senders).newContract = e.newContract := rfl
  simp only [keepRefused, hrefused, hnew, inside_withSenders]
  cases e.depositRefused with
  | false => rfl
  | true =>
      cases e.newContract with
      | none => rfl
      | some address => cases hthere : e.inside.hasAccount address <;> simp only [hthere] <;> rfl

theorem close_withSenders : close (p.withSenders senders) = (close p).withSenders senders := by
  simp only [close, outcome_withSenders]
  cases p.outcome with
  | ok => rfl
  | error fault =>
      exact keepRefused_withSenders
        (abort { p.execution with result := p.program.result, program := some p.program } fault)
        senders

theorem complete_withSenders :
    j.complete (e.withSenders senders) = (j.complete e).withSenders senders := by
  have hprogram : (e.withSenders senders).program = e.program := rfl
  simp only [complete, hprogram]
  cases e.program with
  | none => rfl
  | some program =>
      simp only [play_withSenders, close_withSenders]

/-! ### The whole -/

/-- The first two phases carry the cache along. -/
theorem played_withSenders (outer : View) (senders other : SenderCache) :
    j.played outer other = (j.played outer senders).withSenders other := by
  have hstart : ({ outer, senders := other } : Execution) =
      ({ outer, senders } : Execution).withSenders other := rfl
  rw [played, hstart, run_withSenders, complete_withSenders, played]

theorem finalize_withSenders (hchain : j.isLocal = false) :
    j.finalize (e.withSenders senders) =
      (j.finalize e).withSenders (senders.store j.transaction) := by
  rw [finalize_on_chain hchain, finalize_on_chain hchain]
  rfl

/-- The third phase keeps the sender once more. -/
theorem finalize_played (hchain : j.isLocal = false) (outer : View)
    (senders other : SenderCache) :
    j.finalize (j.played outer other) =
      (j.finalize (j.played outer senders)).withSenders (other.store j.transaction) := by
  rw [j.played_withSenders outer senders other, j.finalize_withSenders _ other hchain]

section Sound

variable {j : Job} {outer : View} {senders other : SenderCache} {transactions : List Transaction}

/-- Validation with a sound cache. -/
theorem validate_of_sound (hchain : j.isLocal = false) (hsound : senders.Sound transactions)
    (ht : j.transaction ∈ transactions) (outer : View) :
    j.validate outer senders =
      match j.checkGas with
      | .error rejection => (.error rejection, senders)
      | .ok () => (j.checkSender outer j.transaction.sender, senders.store j.transaction) := by
  cases hgas : j.checkGas with
  | error rejection => simp [validate, hchain, hgas]
  | ok => simp [validate, hchain, hgas, hsound.sender ht]

/-- Executions that start from sound caches differ in their caches alone. -/
theorem execute_eq_of_sound (hchain : j.isLocal = false) (hsound : senders.Sound transactions)
    (hother : other.Sound transactions) (ht : j.transaction ∈ transactions) :
    j.execute outer other =
      (j.execute outer senders).withSenders (j.execute outer other).senders := by
  have hvalidate := validate_of_sound hchain hsound ht outer
  have hvalidateOther := validate_of_sound hchain hother ht outer
  simp only [execute, hvalidate, hvalidateOther]
  cases j.checkGas with
  | error rejection => rfl
  | ok =>
      dsimp only
      cases j.checkSender outer j.transaction.sender with
      | error rejection => rfl
      | ok =>
          dsimp only
          rw [j.finalize_played hchain outer (senders.store j.transaction)]
          rfl

/-- A sound cache stays sound. -/
theorem sound_execute (hchain : j.isLocal = false) (hsenders : Unambiguous transactions)
    (hsound : senders.Sound transactions) (ht : j.transaction ∈ transactions) :
    (j.execute outer senders).senders.Sound transactions := by
  have hvalidate := validate_of_sound hchain hsound ht outer
  have hstored := hsound.store hsenders ht
  simp only [execute, hvalidate]
  cases j.checkGas with
  | error rejection => exact hsound
  | ok =>
      dsimp only
      cases j.checkSender outer j.transaction.sender with
      | error rejection => exact hstored
      | ok =>
          dsimp only
          rw [j.finalize_played hchain outer (senders.store j.transaction)]
          exact hstored.store hsenders ht

end Sound

end Job

end LedgerExec
