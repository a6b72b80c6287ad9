import LedgerExec.Proofs.Execution.Covered
set_option autoImplicit false

/-!
# The two arithmetics beside one another

The same transaction is executed under the strict and under the legacy arithmetic.  Both
come to the same unless a built-in contract is called with a limit between the gas that it
asks for and this gas with the intrinsic cost (`Job.Undisputed`), or is itself there under
one of them only (`Job.Ungated`).

The rules are read where a built-in contract takes its gas, where the refund is added to
what is left, and in the receipt.  The receipt asks for differences that stop at zero, on
which both agree.  For the refund it takes an invariant of the run: nothing is left, or
what is left and what is used do not exceed the limit together (`Execution.Covered`).  A
run that has used more than the limit leaves nothing, and half of any quantity of gas is
below the ceiling.
-/

namespace LedgerExec

/-! ## Where the arithmetics agree -/

namespace GasRules

variable {x y : Gas}

theorem subOrZero_eq (rules other : GasRules) (x y : Gas) :
    rules.subOrZero x y = other.subOrZero x y := by
  rw [← Unsigned.toNat_inj, toNat_subOrZero, toNat_subOrZero]

/-- A difference that is not negative. -/
theorem exists_sub_eq_ok (h : y ≤ x) :
    ∃ left : Gas, left.toNat + y.toNat = x.toNat ∧ ∀ rules : GasRules, rules.sub x y = .ok left := by
  have hle := Unsigned.le_iff.mp h
  refine ⟨Unsigned.subSat x y, ?_, fun rules => ?_⟩
  · rw [Unsigned.toNat_subSat]
    omega
  · cases rules with
    | legacy => rfl
    | strict =>
        refine Gas.sub_eq_ok_iff.mpr ?_
        rw [Unsigned.toNat_subSat]
        omega

/-- A sum below the ceiling. -/
theorem toNat_add (rules : GasRules) (h : x.toNat + y.toNat ≤ Gas.ceiling.toNat) :
    (rules.add x y).toNat = x.toNat + y.toNat := by
  rw [Gas.toNat_ceiling] at h
  cases rules with
  | legacy =>
      simp only [add, Unsigned.toNat_addSat]
      omega
  | strict =>
      simp only [add, Gas.toNat_add]
      omega

end GasRules

/-! ## Changing the arithmetic -/

namespace ActiveUpgrades

/-- The same upgrades, except that the arithmetic is the given one. -/
def withRules (a : ActiveUpgrades) (rules : GasRules) : ActiveUpgrades :=
  let others := a.active.filter (· ≠ .strictGas)
  { a with
    active :=
      match rules with
      | .strict => .strictGas :: others
      | .legacy => others }

theorem ofUpgrades_withRules (a : ActiveUpgrades) (rules : GasRules) :
    GasRules.ofUpgrades (a.withRules rules) = rules := by
  cases rules <;> simp [GasRules.ofUpgrades, has, withRules]

theorem has_withRules (a : ActiveUpgrades) (rules : GasRules) {upgrade : Upgrade}
    (hother : upgrade ≠ .strictGas) : (a.withRules rules).has upgrade = a.has upgrade := by
  cases rules <;> simp [has, withRules, hother]

end ActiveUpgrades

/-- A contract that strict gas does not bring about is there under both arithmetics. -/
theorem Registry.contract?_withRules {r : Registry} {address : Address}
    (hungated : ∀ entry ∈ r.entries[address]?, entry.upgrade ≠ some .strictGas)
    (a : ActiveUpgrades) (rules : GasRules) :
    r.contract? (a.withRules rules) address = r.contract? a address := by
  unfold contract?
  split
  · rfl
  · rename_i entry hentry
    have hother := hungated entry hentry
    split
    · rfl
    · rename_i upgrade hupgrade
      rw [hupgrade] at hother
      rw [a.has_withRules rules fun hsame => hother (congrArg some hsame)]

namespace Job

/-- The job in a block with the given arithmetic, everything else as it is. -/
def under (j : Job) (rules : GasRules) : Job :=
  { j with context.active := j.context.active.withRules rules }

/-- The receiver is not a built-in contract that strict gas brings about. -/
def Ungated (j : Job) : Prop :=
  ∀ receiver ∈ j.transaction.receiver?, ∀ entry ∈ j.context.registry.entries[receiver]?,
    entry.upgrade ≠ some .strictGas

/-- The gas that a built-in contract asks for, and the intrinsic cost. -/
def charge (j : Job) (contract : BuiltIn) : Gas := Gas.add (j.required contract) j.basicCost

/-- A built-in contract is called with gas for its whole charge, or on chain with less than it
asks for itself. -/
def Undisputed (j : Job) : Dispatch → Prop
  | .builtIn _ contract =>
    j.charge contract ≤ j.transaction.gasLimit ∨
      j.isLocal = false ∧ j.transaction.gasLimit < j.required contract
  | _ => True

instance (j : Job) : DecidablePred j.Undisputed
  | .builtIn _ _ => inferInstanceAs (Decidable (_ ∨ _ ∧ _))
  | .creation _ => inferInstanceAs (Decidable True)
  | .program _ _ => inferInstanceAs (Decidable True)
  | .plain _ => inferInstanceAs (Decidable True)

variable {j : Job} {outer : View} {e : Execution} (rules : GasRules)

theorem gasRules_under (j : Job) : (j.under rules).context.gasRules = rules :=
  j.context.active.ofUpgrades_withRules rules

theorem basicCost_under (j : Job) : (j.under rules).basicCost = j.basicCost := by
  have hpaid : (j.under rules).context.active.has .paidSetup =
      j.context.active.has .paidSetup :=
    j.context.active.has_withRules rules (by decide)
  simp only [basicCost, ChainConfig.intrinsicCost, SetupPolicy.isFree, hpaid]
  rfl

theorem dispatch_under (hungated : j.Ungated) (outer : View) :
    (j.under rules).dispatch outer = j.dispatch outer := by
  have htransaction : (j.under rules).transaction = j.transaction := rfl
  simp only [dispatch, htransaction]
  cases hreceiver : j.transaction.receiver? with
  | none => rfl
  | some receiver =>
      have hcontract : (j.under rules).context.registry.contract?
          (j.under rules).context.active receiver =
            j.context.registry.contract? j.context.active receiver :=
        Registry.contract?_withRules (hungated receiver hreceiver) j.context.active rules
      simp only [hcontract]

/-- Which built-in contract is called does not depend on the state. -/
theorem dispatch_of_builtIn {address : Address} {contract : BuiltIn}
    (h : j.dispatch outer = .builtIn address contract) (other : View) :
    j.dispatch other = .builtIn address contract := by
  simp only [dispatch] at h ⊢
  split at h
  · simp at h
  · split at h
    · exact h
    · split at h
      · split at h <;> simp at h
      · simp at h

/-! ## What the phases have in common -/

theorem checkGas_under (j : Job) : (j.under rules).checkGas = j.checkGas := by
  simp only [checkGas, basicCost_under]
  rfl

theorem validate_under (j : Job) (outer : View) (senders : SenderCache) :
    (j.under rules).validate outer senders = j.validate outer senders := by
  have hcost : (j.under rules).totalCost = j.totalCost := by
    simp only [totalCost, basicCost_under]
    rfl
  simp only [validate, checkGas_under, checkSender, checkCash, hcost]
  rfl

theorem chargeBasic_under (j : Job) (e : Execution) :
    (j.under rules).chargeBasic e = j.chargeBasic e := by
  simp only [chargeBasic, basicCost_under]
  rfl

theorem create_under (j : Job) (e : Execution) (address : Address) :
    (j.under rules).create e address = j.create e address := by
  simp only [create, chargeBasic_under]
  rfl

theorem complete_under (j : Job) (e : Execution) :
    (j.under rules).complete e = j.complete e := by
  have hplay (program : Program) : (j.under rules).play e program = j.play e program := by
    simp only [play, basicCost_under]
    rfl
  simp only [complete, hplay]

theorem receipt_under (j : Job) (other : GasRules) (e : Execution) :
    (j.under rules).receipt e = (j.under other).receipt e := by
  have hcharged (limit left : Gas) :
      (j.under rules).context.gasRules.subOrZero limit left =
        (j.under other).context.gasRules.subOrZero limit left := GasRules.subOrZero_eq _ _ _ _
  simp only [receipt, gasUsed, rentGasUsed, hcharged]
  rfl

/-! ## Calls of built-in contracts -/

/-- The limit leaves room below the ceiling, as it does for every transaction on chain that the
block has room for. -/
def Roomy (j : Job) : Prop :=
  j.isLocal = true ∨ j.transaction.gasLimit.toNat < Gas.ceiling.toNat

theorem roomy_of_checkGas (hgas : j.checkGas = .ok ()) : j.Roomy := by
  obtain ⟨-, hceiling, -⟩ := checkGas_eq_ok_iff.mp hgas
  exact .inr (Nat.lt_of_le_of_lt (Nat.le_add_right _ _) hceiling)

/-- A built-in contract that is called with gas for its whole charge is answered. -/
theorem callBuiltIn_of_covered (hroomy : j.Roomy) {contract : BuiltIn}
    (hcovered : j.charge contract ≤ j.transaction.gasLimit) (e : Execution) (address : Address) :
    j.callBuiltIn e address contract =
      j.moveValue (j.answer e address contract (j.charge contract)) address := by
  have henough : (!j.isLocal && !j.context.gasRules.hasEnough j.transaction.gasLimit
      (j.required contract) (j.charge contract)) = false := by
    rcases hroomy with hlocal | hceiling
    · rw [hlocal]
      rfl
    · cases j.context.gasRules with
      | strict => simp [GasRules.hasEnough, hcovered]
      | legacy =>
          have hrequired : j.required contract ≤ j.transaction.gasLimit := by
            rw [Unsigned.le_iff, charge, Gas.toNat_add] at hcovered
            rw [Gas.toNat_ceiling] at hceiling
            rw [Unsigned.le_iff]
            omega
          simp [GasRules.hasEnough, hrequired]
  change (if (!j.isLocal && !j.context.gasRules.hasEnough _ (j.required contract)
    (j.charge contract)) = true then _ else _) = _
  rw [henough]
  rfl

/-- On chain a built-in contract that is called with less gas than it asks for is not answered. -/
theorem callBuiltIn_of_short (hchain : j.isLocal = false) (hroomy : j.Roomy) {contract : BuiltIn}
    (hshort : j.transaction.gasLimit < j.required contract) (e : Execution) (address : Address) :
    j.callBuiltIn e address contract =
      { e with
        error := some (.builtInOutOfGas j.context.block.number address (j.required contract)
          (j.charge contract) e.gasLeft)
        gasLeft := 0
        rentLeft := threeQuarters j.transaction.rentGasLimit } := by
  have hless := Unsigned.lt_iff.mp hshort
  have hceiling : j.transaction.gasLimit.toNat < Gas.ceiling.toNat :=
    hroomy.resolve_left (by simp [hchain])
  have hrequired : ¬j.required contract ≤ j.transaction.gasLimit :=
    fun hle => Nat.not_le_of_lt hless (Unsigned.le_iff.mp hle)
  have hcharge : ¬j.charge contract ≤ j.transaction.gasLimit := by
    rw [Gas.toNat_ceiling] at hceiling
    rw [Unsigned.le_iff, charge, Gas.toNat_add]
    omega
  have hlacking : (!j.isLocal && !j.context.gasRules.hasEnough j.transaction.gasLimit
      (j.required contract) (j.charge contract)) = true := by
    cases j.context.gasRules <;> simp [GasRules.hasEnough, hchain, hrequired, hcharge]
  exact if_pos hlacking

theorem charge_under (rules : GasRules) (j : Job) (contract : BuiltIn) :
    (j.under rules).charge contract = j.charge contract := by
  simp only [charge, basicCost_under]
  rfl

/-- What a built-in contract answers once its gas is taken. -/
theorem answer_of_sub {used left : Gas}
    (hsub : j.context.gasRules.sub j.transaction.gasLimit used = .ok left) (e : Execution)
    (address : Address) (contract : BuiltIn) :
    j.answer e address contract used =
      let answered := j.consult { e with rentLeft := j.transaction.rentGasLimit, gasLeft := left }
        address contract
      { answered with result := answered.result.spend used } := by
  have htaken : j.takeGas { e with rentLeft := j.transaction.rentGasLimit } used =
      { e with rentLeft := j.transaction.rentGasLimit, gasLeft := left } := by
    simp only [takeGas, hsub]
  simp only [answer, htaken]

theorem callBuiltIn_under (rules other : GasRules) (hroomy : j.Roomy) {address : Address}
    {contract : BuiltIn} (hundisputed : j.Undisputed (.builtIn address contract)) (e : Execution) :
    (j.under rules).callBuiltIn e address contract =
      (j.under other).callBuiltIn e address contract := by
  rcases hundisputed with hcovered | ⟨hchain, hshort⟩
  · obtain ⟨left, -, hsub⟩ := GasRules.exists_sub_eq_ok hcovered
    have hcall (rules : GasRules) : (j.under rules).callBuiltIn e address contract =
        j.moveValue ((j.under rules).answer e address contract (j.charge contract)) address := by
      have hcharge := charge_under rules j contract
      rw [← hcharge] at hcovered ⊢
      exact callBuiltIn_of_covered (j := j.under rules) hroomy hcovered e address
    have hsub (rules : GasRules) : (j.under rules).context.gasRules.sub
        (j.under rules).transaction.gasLimit (j.charge contract) = .ok left := by
      rw [gasRules_under]
      exact hsub rules
    rw [hcall, hcall, answer_of_sub (hsub rules), answer_of_sub (hsub other)]
    rfl
  · have hcall (rules : GasRules) :=
      callBuiltIn_of_short (j := j.under rules) hchain hroomy hshort e address
    rw [hcall, hcall, charge_under, charge_under]
    rfl

theorem covered_callBuiltIn (hroomy : j.Roomy) {address : Address} {contract : BuiltIn}
    (hundisputed : j.Undisputed (.builtIn address contract)) (hfresh : e.result.gasUsed = 0) :
    (j.callBuiltIn e address contract).Covered j.transaction.gasLimit := by
  rcases hundisputed with hcovered | ⟨hchain, hshort⟩
  · obtain ⟨left, hsum, hsub⟩ := GasRules.exists_sub_eq_ok hcovered
    rw [callBuiltIn_of_covered hroomy hcovered, answer_of_sub (hsub j.context.gasRules)]
    refine covered_moveValue (.inr ?_) address
    obtain ⟨-, hleft, hused, -⟩ := j.consult_counts
      { e with rentLeft := j.transaction.rentGasLimit, gasLeft := left } address contract
    change (Execution.gasLeft _).toNat + (Gas.add (Execution.result _).gasUsed _).toNat ≤ _
    rw [hleft, hused, hfresh, Gas.toNat_add, Unsigned.toNat_zero]
    change left.toNat + _ ≤ _
    omega
  · rw [callBuiltIn_of_short hchain hroomy hshort]
    exact .inl rfl

/-! ## The same run under both -/

theorem Undisputed.congr (h : j.Undisputed (j.dispatch outer)) (other : View) :
    j.Undisputed (j.dispatch other) := by
  cases hdispatch : j.dispatch other with
  | builtIn address contract =>
      rw [dispatch_of_builtIn hdispatch outer] at h
      exact h
  | creation | program | plain => trivial

theorem undisputed_under (rules : GasRules) (hungated : j.Ungated)
    (h : j.Undisputed (j.dispatch outer)) :
    (j.under rules).Undisputed ((j.under rules).dispatch outer) := by
  rw [dispatch_under rules hungated]
  cases hdispatch : j.dispatch outer with
  | builtIn address contract =>
      rw [hdispatch] at h
      change (j.under rules).charge contract ≤ _ ∨ _
      rw [charge_under]
      exact h
  | creation | program | plain => trivial

/-- The first phase once it is paid. -/
theorem perform_under (rules other : GasRules) (hroomy : j.Roomy) (hungated : j.Ungated)
    (hundisputed : j.Undisputed (j.dispatch e.outer)) :
    (j.under rules).perform e = (j.under other).perform e := by
  simp only [perform, dispatch_under _ hungated]
  cases hdispatch : j.dispatch e.outer with
  | creation address => simp only [create_under]
  | builtIn address contract =>
      rw [hdispatch] at hundisputed
      exact callBuiltIn_under rules other hroomy hundisputed e
  | program address code => rfl
  | plain address =>
      simp only [chargeBasic_under]
      rfl

theorem covered_perform (hroomy : j.Roomy) (hundisputed : j.Undisputed (j.dispatch e.outer))
    (hleft : e.gasLeft = 0) (hfresh : e.result.gasUsed = 0) :
    (j.perform e).Covered j.transaction.gasLimit := by
  unfold perform
  split
  · exact covered_create hleft hfresh _
  · rename_i address contract hdispatch
    rw [hdispatch] at hundisputed
    exact covered_callBuiltIn hroomy hundisputed hfresh
  · exact covered_moveValue (covered_prepare hleft _ _) _
  · exact covered_moveValue (covered_chargeBasic hfresh) _

/-- The first phase on a fresh execution. -/
theorem run_under (rules other : GasRules) (hroomy : j.Roomy) (hungated : j.Ungated)
    (hundisputed : j.Undisputed (j.dispatch outer)) (senders : SenderCache) :
    (j.under rules).run { outer, senders } = (j.under other).run { outer, senders } := by
  have hperform (e : Execution) : (j.under rules).perform e = (j.under other).perform e :=
    perform_under rules other hroomy hungated (hundisputed.congr e.outer)
  simp only [run, hperform]
  rfl

theorem covered_run (hchain : j.isLocal = false) (hroomy : j.Roomy)
    (hundisputed : j.Undisputed (j.dispatch outer)) (senders : SenderCache) :
    (j.run { outer, senders }).Covered j.transaction.gasLimit := by
  rcases run_cases hchain outer senders with ⟨fault, -, hrun⟩ | ⟨paid, -, hrun⟩
  · rw [hrun]
    exact .inl rfl
  · rw [hrun]
    exact covered_perform hroomy (hundisputed.congr paid) rfl rfl

theorem played_under (rules other : GasRules) (hroomy : j.Roomy) (hungated : j.Ungated)
    (hundisputed : j.Undisputed (j.dispatch outer)) (senders : SenderCache) :
    (j.under rules).played outer senders = (j.under other).played outer senders := by
  rw [played, played, complete_under, complete_under,
    run_under rules other hroomy hungated hundisputed senders]

/-- Settling on chain reads the rules for what goes back alone. -/
theorem finalize_under_on_chain (rules : GasRules) (hchain : j.isLocal = false) (e : Execution) :
    (j.under rules).finalize e =
      { j.finalize e with
        gasLeft := rules.add e.gasLeft
          (j.settlement (creditDestroyed e.result) e.gasLeft).gasRefund } := by
  rw [finalize_on_chain (j := j.under rules) hchain, finalize_on_chain hchain, gasRules_under]
  rfl

/-- Settling a run that does not leave more than it has. -/
theorem finalize_under (rules other : GasRules) (hchain : j.isLocal = false)
    (hcovered : e.Covered j.transaction.gasLimit) :
    (j.under rules).finalize e = (j.under other).finalize e := by
  have hback (rules : GasRules) := rules.toNat_add (back_le_of_covered hcovered)
  have hsum := Unsigned.toNat_inj.mp ((hback rules).trans (hback other).symm)
  rw [finalize_under_on_chain rules hchain, finalize_under_on_chain other hchain, hsum]

/-- A transaction whose receiver both arithmetics see alike comes to the same under both, unless it
calls a built-in contract with a limit between what this asks for and its whole charge. -/
theorem execute_under (rules other : GasRules) (hungated : j.Ungated)
    (hundisputed : j.Undisputed (j.dispatch outer)) (senders : SenderCache) :
    (j.under rules).execute outer senders = (j.under other).execute outer senders := by
  cases hlocal : j.isLocal with
  | true =>
      have hexecute (rules : GasRules) :
          (j.under rules).execute outer senders = (j.under rules).played outer senders := by
        have hlocal : (j.under rules).isLocal = true := hlocal
        simp only [execute, validate, finalize, hlocal, if_true]
      rw [hexecute, hexecute]
      exact played_under rules other (.inl hlocal) hungated hundisputed senders
  | false =>
      simp only [execute, validate_under]
      cases hverdict : j.validate outer senders with
      | mk verdict cached =>
          cases verdict with
          | error rejection => rfl
          | ok =>
              have haccepted := (validate_eq_ok_iff hlocal).mp (congrArg Prod.fst hverdict)
              have hroomy := roomy_of_checkGas haccepted.1
              have hrun := covered_run (j := j.under other) hlocal hroomy
                (undisputed_under other hungated hundisputed) cached
              dsimp only
              rw [played_under rules other hroomy hungated hundisputed cached]
              exact finalize_under rules other hlocal (covered_complete hrun)

/-- Under both arithmetics the execution comes to the same in everything, and so does what is
reported of it. -/
theorem strict_eq_legacy (hungated : j.Ungated) (hundisputed : j.Undisputed (j.dispatch outer))
    (senders : SenderCache) :
    (j.under .strict).execute outer senders = (j.under .legacy).execute outer senders ∧
      (j.under .strict).receipt ((j.under .strict).execute outer senders) =
        (j.under .legacy).receipt ((j.under .legacy).execute outer senders) := by
  have hexecute := execute_under .strict .legacy hungated hundisputed senders
  refine ⟨hexecute, ?_⟩
  rw [hexecute]
  exact receipt_under .strict j .legacy _

/-- A call of the identity contract with more gas than it takes. -/
def coveredCall : Job :=
  sample
    { gasPrice := 2
      gasLimit := 50000
      rentGasLimit := 1000
      receiver := BuiltIn.identityAddress.toBytes
      value := 8
      data := [1, 2, 3] } []

theorem strict_eq_legacy_coveredCall :
    (coveredCall.under .strict).execute View.sample (SenderCache.ofCapacity 1) =
        (coveredCall.under .legacy).execute View.sample (SenderCache.ofCapacity 1) ∧
      (coveredCall.under .strict).receipt
          ((coveredCall.under .strict).execute View.sample (SenderCache.ofCapacity 1)) =
        (coveredCall.under .legacy).receipt
          ((coveredCall.under .legacy).execute View.sample (SenderCache.ofCapacity 1)) ∧
      ((coveredCall.under .legacy).execute View.sample (SenderCache.ofCapacity 1)).result.output =
        [1, 2, 3] := by
  have hungated : coveredCall.Ungated := by
    unfold Ungated
    decide +kernel
  have hundisputed : coveredCall.Undisputed (coveredCall.dispatch View.sample) := by
    decide +kernel
  obtain ⟨hexecute, hreceipt⟩ :=
    strict_eq_legacy hungated hundisputed (SenderCache.ofCapacity 1)
  refine ⟨hexecute, hreceipt, ?_⟩
  decide +kernel

/-- The same call where strict gas brings the identity contract about. -/
def gatedCall : Job :=
  { coveredCall with
    context.registry :=
      Registry.standard.register BuiltIn.identityAddress (some .strictGas) BuiltIn.identity }

/-- Under each arithmetic there is nothing to dispute, as only one of them knows the contract; so
the receipts differ by what it asks for. -/
theorem strict_ne_legacy_of_gated :
    (∀ rules : GasRules,
        (gatedCall.under rules).Undisputed ((gatedCall.under rules).dispatch View.sample)) ∧
      ((gatedCall.under .strict).receipt ((gatedCall.under .strict).execute View.sample
        (SenderCache.ofCapacity 1))).gasUsed.toNat = 21222 ∧
      ((gatedCall.under .legacy).receipt ((gatedCall.under .legacy).execute View.sample
        (SenderCache.ofCapacity 1))).gasUsed.toNat = 21204 := by
  refine ⟨?_, ?_⟩
  · intro rules
    cases rules <;> decide +kernel
  · decide +kernel

end Job

end LedgerExec
