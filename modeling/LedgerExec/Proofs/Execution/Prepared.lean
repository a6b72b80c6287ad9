import LedgerExec.Proofs.Execution.Inner
import LedgerExec.Proofs.Execution.Contained
set_option autoImplicit false

/-!
# After the first phase

`Job.Prepared` says how the first phase leaves an execution, whatever the
transaction asks for: the outer view is still the one that was paid from, the
result asks for nothing to be settled, and if there is an error already, then
nothing is pending, no program waits and no gas is left.

Every function of the phase keeps it as long as there is no error, so it holds of
`perform` and with it of every run whose prepayment succeeded (`run_cases`).  It
carries along any property of the view of the run that the single operations keep
(`Job.Stable`).
-/

namespace LedgerExec

/-! ## Results that ask for nothing -/

/-- Nothing in the result has to be settled: no log, no account to remove, no code to save, no gas
to give back. -/
structure RunResult.Quiet (r : RunResult) : Prop where
  logs : r.logs = []
  destroyed : r.destroyed = ∅
  codeChanges : r.codeChanges = ∅
  refund : r.refund = 0

namespace RunResult

theorem quiet_empty : Quiet {} := ⟨rfl, rfl, rfl, rfl⟩

theorem quiet_discard (r : RunResult) : r.discard.Quiet := ⟨rfl, rfl, rfl, rfl⟩

theorem Quiet.fail {r : RunResult} (h : r.Quiet) (fault : RunFault) : (r.fail fault).Quiet :=
  ⟨h.logs, h.destroyed, h.codeChanges, h.refund⟩

theorem Quiet.spend {r : RunResult} (h : r.Quiet) (gas : Gas) : (r.spend gas).Quiet :=
  ⟨h.logs, h.destroyed, h.codeChanges, h.refund⟩

theorem Quiet.output {r : RunResult} (h : r.Quiet) (output : Bytes) :
    Quiet { r with output } :=
  ⟨h.logs, h.destroyed, h.codeChanges, h.refund⟩

end RunResult

theorem GasRules.toNat_le_of_sub {rules : GasRules} {x y z : Gas} (h : rules.sub x y = .ok z) :
    z.toNat ≤ x.toNat := by
  cases rules with
  | legacy =>
      simp only [sub, Except.ok.injEq] at h
      rw [← h, Unsigned.toNat_subSat]
      omega
  | strict =>
      have hsum := Gas.sub_eq_ok_iff.mp h
      omega

namespace Job

variable {j : Job}

/-- The address of the contract that the transaction creates, if it creates one. -/
def newAddress (j : Job) : Address :=
  contractAddress j.transaction.sender j.transaction.payload.nonce

/-- What the phases do to the view of a run that paid from `paid` keeps the property `I` of views,
the interpreter apart. -/
structure Stable (j : Job) (paid : View) (I : View → Prop) : Prop where
  start : I paid.push
  created : j.transaction.isCreation = true → I (paid.push.create j.newAddress)
  create : ∀ v address, v.hasAccount address = false → I v → I (v.create address)
  setUpContract : ∀ v address, I v → I (v.setUpContract address)
  saveCode : ∀ v address code, I v → I (v.saveCode address code)
  transfer : ∀ v w address,
    v.transfer j.transaction.sender address j.transaction.payload.value = .ok w → I v → I w

/-- Nothing is asked of the view. -/
theorem stable_true (j : Job) (paid : View) : j.Stable paid fun _ => True :=
  ⟨trivial, fun _ => trivial, fun _ _ _ _ => trivial, fun _ _ _ => trivial,
    fun _ _ _ _ => trivial, fun _ _ _ _ _ => trivial⟩

/-- How the first phase leaves an execution that paid from `paid`. -/
structure Prepared (j : Job) (paid : View) (I : View → Prop) (e : Execution) : Prop where
  outer : e.outer = paid
  inside : I e.inside
  prepaid : e.prepaid = !j.isLocal
  depositRefused : e.depositRefused = false
  newContract : ∀ address, e.newContract = some address →
    j.transaction.isCreation = true ∧ address = j.newAddress
  quiet : e.result.Quiet
  gasLeft : e.gasLeft.toNat ≤ j.transaction.gasLimit.toNat
  named : e.program ≠ none → j.transaction.isCreation = true → e.newContract = some j.newAddress
  program : ∀ p, e.program = some p → p.result = {} ∧
    ∃ owner v, p.invocation = j.context.invocation j.transaction j.index owner j.context.block v
  stopped : e.error ≠ none → e.inner = {} ∧ e.program = none ∧ e.gasLeft = 0

variable {paid : View} {I : View → Prop} {e : Execution}

/-- The execution that the first phase starts with once it is paid. -/
theorem prepared_start (hstable : j.Stable paid I) (senders : SenderCache) :
    j.Prepared paid I { outer := paid, senders, prepaid := !j.isLocal } where
  outer := rfl
  inside := hstable.start
  prepaid := rfl
  depositRefused := rfl
  newContract _ h := by simp at h
  quiet := RunResult.quiet_empty
  gasLeft := by simp
  named h := absurd rfl h
  program _ h := by simp at h
  stopped h := absurd rfl h

/-- A contract is adopted by making its account, by marking it, or by doing nothing. -/
theorem adopt_induction {P : View → Prop} {v : View} {address : Address}
    (created : v.hasAccount address = false → P ((v.create address).setUpContract address))
    (marked : P (v.setUpContract address)) (kept : P v) : P (adopt address v) := by
  unfold adopt
  split
  · rename_i hmissing
    exact created (by simpa using hmissing)
  · split
    · exact marked
    · exact kept

theorem below_adopt (address : Address) (v : View) : (adopt address v).below = v.below := by
  apply adopt_induction (P := fun w => w.below = v.below)
  · exact fun _ => rfl
  · rfl
  · rfl

theorem Stable.adopt (hstable : j.Stable paid I) {v : View} (hv : I v) (address : Address) :
    I (adopt address v) := by
  apply adopt_induction
  · intro hmissing
    exact hstable.setUpContract _ address (hstable.create v address hmissing hv)
  · exact hstable.setUpContract v address hv
  · exact hv

theorem error_takeGas (j : Job) (e : Execution) (used : Gas) :
    (j.takeGas e used).error = e.error := by
  unfold takeGas
  split <;> rfl

theorem error_consult (j : Job) (e : Execution) (address : Address) (contract : BuiltIn) :
    (j.consult e address contract).error = e.error := by
  simp only [consult]
  split <;> rfl

theorem error_answer (j : Job) (e : Execution) (address : Address) (contract : BuiltIn)
    (used : Gas) : (j.answer e address contract used).error = e.error :=
  (j.error_consult _ address contract).trans (j.error_takeGas _ used)

namespace Prepared

/-- Nothing has gone wrong when a program waits to be played. -/
theorem error_eq_none (h : j.Prepared paid I e) {program : Program}
    (hprogram : e.program = some program) : e.error = none := by
  cases herror : e.error with
  | none => rfl
  | some error =>
      obtain ⟨-, hnone, -⟩ := h.stopped (by simp [herror])
      exact absurd (hprogram.symm.trans hnone) (Option.some_ne_none _)

/-- What is done inside stays inside. -/
theorem within (h : j.Prepared paid I e) (herror : e.error = none) {f : View → View}
    (hbelow : (f e.inside).below = e.inside.below) (hinside : I (f e.inside)) :
    j.Prepared paid I (e.within f) := by
  rw [e.within_eq hbelow]
  exact
    { h with
      inside := by
        change I ⟨(f e.inside).top, e.inside.below⟩
        rwa [View.top_on_below hbelow]
      stopped := fun herr => absurd herror herr }

/-- Changes to what no clause speaks of, or speaks of with room. -/
theorem reckoned (h : j.Prepared paid I e) (herror : e.error = none) {left rent : Gas}
    {result : RunResult} {subtraces : List Subtrace}
    (hleft : left.toNat ≤ j.transaction.gasLimit.toNat) (hquiet : result.Quiet) :
    j.Prepared paid I { e with gasLeft := left, rentLeft := rent, result, subtraces } :=
  { h with
    quiet := hquiet
    gasLeft := hleft
    stopped := fun herr => absurd herror herr }

theorem chargeBasic (h : j.Prepared paid I e) (herror : e.error = none) :
    j.Prepared paid I (j.chargeBasic e) := by
  have hleft : (Unsigned.subSat j.transaction.gasLimit j.basicCost).toNat ≤
      j.transaction.gasLimit.toNat := by
    rw [Unsigned.toNat_subSat]
    omega
  exact h.reckoned herror hleft (h.quiet.spend _)

theorem prepare (h : j.Prepared paid I e) (herror : e.error = none) (owner : Address)
    (code : Bytes) (hnew : j.transaction.isCreation = true → e.newContract = some j.newAddress) :
    j.Prepared paid I (j.prepare e owner code) :=
  { h with
    named := fun _ => hnew
    program := fun p hp => by
      obtain rfl := Option.some.inj hp
      exact ⟨rfl, owner, e.inside, rfl⟩
    stopped := fun herr => absurd herror herr }

/-- A run that fails before its program is played leaves nothing behind. -/
theorem failRun (hstable : j.Stable paid I) (h : j.Prepared paid I e) (fault : RunFault) :
    j.Prepared paid I (failRun e fault) :=
  { h with
    inside := by
      change I e.outer.push
      rw [h.outer]
      exact hstable.start
    quiet := h.quiet.fail fault
    gasLeft := by
      change (0 : Gas).toNat ≤ _
      simp
    named := fun hp => absurd rfl hp
    program := fun _ hp => by simp [Job.failRun] at hp
    stopped := fun _ => ⟨rfl, rfl, rfl⟩ }

theorem moveValue (hstable : j.Stable paid I) (h : j.Prepared paid I e) (herror : e.error = none)
    (target : Address) : j.Prepared paid I (j.moveValue e target) := by
  unfold Job.moveValue
  split
  · exact h
  · split
    · rename_i v htransfer
      have hbelow : v.below = e.inside.below := View.below_of_transfer htransfer
      have hinside := hstable.transfer e.inside v target htransfer h.inside
      exact h.within herror (f := fun _ => v) hbelow hinside
    · exact failRun hstable h _

theorem create (hstable : j.Stable paid I) (h : j.Prepared paid I e) (herror : e.error = none)
    (hinner : e.inner = {}) (hcreation : j.transaction.isCreation = true) :
    j.Prepared paid I (j.create e j.newAddress) := by
  have hpush : e.inside = paid.push := by rw [e.inside_of_clean hinner, h.outer]
  have hnamed : j.Prepared paid I { e with newContract := some j.newAddress } :=
    { h with
      newContract := fun address ha => ⟨hcreation, (Option.some.inj ha).symm⟩
      named := fun _ _ => rfl
      stopped := fun herr => absurd herror herr }
  have hcreated := hnamed.within herror (f := (·.create j.newAddress)) rfl
    (by
      change I (e.inside.create j.newAddress)
      rw [hpush]
      exact hstable.created hcreation)
  unfold Job.create
  split
  · exact moveValue hstable (hcreated.chargeBasic herror) herror _
  · have hcontract := hcreated.within herror (f := (·.setUpContract j.newAddress)) rfl
      (hstable.setUpContract _ _ hcreated.inside)
    exact moveValue hstable (hcontract.prepare herror _ _ fun _ => rfl) herror _

theorem takeGas (h : j.Prepared paid I e) (herror : e.error = none) (used : Gas) :
    j.Prepared paid I (j.takeGas e used) := by
  unfold Job.takeGas
  split
  · rename_i left hsub
    exact h.reckoned herror (GasRules.toNat_le_of_sub hsub) h.quiet
  · exact h.reckoned herror (by simp) (h.quiet.fail _)

theorem consult (hstable : j.Stable paid I) (h : j.Prepared paid I e) (herror : e.error = none)
    (address : Address) (contract : BuiltIn) :
    j.Prepared paid I (j.consult e address contract) := by
  simp only [Job.consult]
  split
  · rename_i output _
    have hanswered : j.Prepared paid I
        { e with
          subtraces := contract.subtracesIn j.environment j.transaction.payload.data
          result := { e.result with output } } :=
      h.reckoned herror h.gasLeft (h.quiet.output output)
    exact hanswered.within herror (below_adopt address _) (hstable.adopt h.inside address)
  · exact h.reckoned herror h.gasLeft (h.quiet.fail _)

theorem answer (hstable : j.Stable paid I) (h : j.Prepared paid I e) (herror : e.error = none)
    (address : Address) (contract : BuiltIn) (used : Gas) :
    j.Prepared paid I (j.answer e address contract used) := by
  have hrent : j.Prepared paid I { e with rentLeft := j.transaction.rentGasLimit } :=
    h.reckoned herror h.gasLeft h.quiet
  have htaken := hrent.takeGas herror used
  have hconsulted :=
    consult hstable htaken ((j.error_takeGas _ used).trans herror) address contract
  exact hconsulted.reckoned ((j.error_answer e address contract used).trans herror)
    hconsulted.gasLeft (hconsulted.quiet.spend used)

theorem callBuiltIn (hstable : j.Stable paid I) (h : j.Prepared paid I e)
    (herror : e.error = none) (hinner : e.inner = {}) (hprogram : e.program = none)
    (address : Address) (contract : BuiltIn) :
    j.Prepared paid I (j.callBuiltIn e address contract) := by
  simp only [Job.callBuiltIn]
  split
  · exact { h with gasLeft := by simp, stopped := fun _ => ⟨hinner, hprogram, rfl⟩ }
  · exact moveValue hstable (answer hstable h herror address contract _)
      ((j.error_answer e address contract _).trans herror) address

end Prepared

theorem receiver?_eq_none_iff {t : Transaction} : t.receiver? = none ↔ t.isCreation = true := by
  unfold Transaction.receiver? Transaction.isCreation
  split <;> simp_all

theorem isCreation_of_receiver {address : Address} (h : j.transaction.receiver? = some address) :
    j.transaction.isCreation = false := by
  rw [← Bool.not_eq_true, ← receiver?_eq_none_iff, h]
  exact Option.some_ne_none address

/-- What each request says about the transaction. -/
def Dispatch.Describes (j : Job) : Dispatch → Prop
  | .creation address => j.transaction.isCreation = true ∧ address = j.newAddress
  | .builtIn address contract => j.transaction.receiver? = some address ∧
      j.context.registry.contract? j.context.active address = some contract
  | .program address _ => j.transaction.receiver? = some address
  | .plain address => j.transaction.receiver? = some address

theorem describes_dispatch (j : Job) (outer : View) : (j.dispatch outer).Describes j := by
  simp only [dispatch]
  split
  · rename_i hreceiver
    exact ⟨receiver?_eq_none_iff.mp hreceiver, rfl⟩
  · rename_i receiver hreceiver
    split
    · rename_i contract hcontract
      exact ⟨hreceiver, hcontract⟩
    · split
      · split
        · exact hreceiver
        · exact hreceiver
      · exact hreceiver

/-- The first phase once it is paid. -/
theorem prepared_perform (hstable : j.Stable paid I) (senders : SenderCache) :
    j.Prepared paid I (j.perform { outer := paid, senders, prepaid := !j.isLocal }) := by
  have hstart := prepared_start hstable senders
  have hdescribes := j.describes_dispatch paid
  unfold perform
  split
  · rename_i hdispatch
    rw [hdispatch] at hdescribes
    obtain ⟨hcreation, rfl⟩ := hdescribes
    exact Prepared.create hstable hstart rfl rfl hcreation
  · exact Prepared.callBuiltIn hstable hstart rfl rfl rfl _ _
  · rename_i hdispatch
    rw [hdispatch] at hdescribes
    have hcall := isCreation_of_receiver hdescribes
    exact Prepared.moveValue hstable
      (hstart.prepare rfl _ _ fun hcreation => absurd hcreation (by simp [hcall])) rfl _
  · exact Prepared.moveValue hstable (hstart.chargeBasic rfl) rfl _

/-- A transaction on chain is either paid for and performed, or ends with its nonce raised. -/
theorem run_cases (hchain : j.isLocal = false) (outer : View) (senders : SenderCache) :
    (∃ fault, (outer.raiseNonce j.transaction.sender).debit j.transaction.sender j.prepayment =
        .error fault ∧
      j.run { outer, senders } =
        { outer := outer.raiseNonce j.transaction.sender
          senders
          error := some (.prepayment fault)
          result := RunResult.fail {} (.transfer fault) }) ∨
    ∃ paid, (outer.raiseNonce j.transaction.sender).debit j.transaction.sender j.prepayment =
        .ok paid ∧
      j.run { outer, senders } = j.perform { outer := paid, senders, prepaid := !j.isLocal } := by
  cases hdebit :
      (outer.raiseNonce j.transaction.sender).debit j.transaction.sender j.prepayment with
  | error fault =>
      refine .inl ⟨fault, rfl, ?_⟩
      simp [run, prepay, hchain, hdebit]
  | ok paid =>
      refine .inr ⟨paid, rfl, ?_⟩
      simp [run, prepay, hchain, hdebit]

/-- The run of a transaction whose price is taken. -/
theorem run_of_paid (hchain : j.isLocal = false) {outer : View}
    (hdebit : (outer.raiseNonce j.transaction.sender).debit j.transaction.sender j.prepayment =
      .ok paid) (senders : SenderCache) :
    j.run { outer, senders } = j.perform { outer := paid, senders, prepaid := !j.isLocal } := by
  rcases run_cases hchain outer senders with ⟨fault, hfault, -⟩ | ⟨paid', hpaid, hrun⟩
  · rw [hdebit] at hfault
    exact nomatch hfault
  · rw [hdebit] at hpaid
    obtain rfl := Except.ok.inj hpaid
    exact hrun

end Job

end LedgerExec
