import LedgerExec.Proofs.Execution.Settled
set_option autoImplicit false

/-!
# Runs that use too much gas

An interpreter may count more gas as used than the transaction has.  Such a run is
stopped where the gas that is left is computed, before the result is discarded, so
its view is forgotten and its result is not: the logs, the removals, the code
changes and the refund that it recorded are settled as those of a good run.

`overspent_forfeits_iff` says what comes of it, and when it comes to nothing.
-/

namespace LedgerExec

namespace GasRules

theorem add_zero_eq_zero_iff (rules : GasRules) (x : Gas) : rules.add 0 x = 0 ↔ x = 0 := by
  have hword := x.isLt
  rw [← Unsigned.toNat_inj, ← Unsigned.toNat_inj]
  cases rules with
  | legacy =>
      simp only [add, Unsigned.toNat_addSat, Unsigned.toNat_zero]
      omega
  | strict =>
      simp only [add, Gas.toNat_add, Unsigned.toNat_zero]
      omega

theorem subOrZero_zero (rules : GasRules) (x : Gas) : rules.subOrZero x 0 = x := by
  have hnothing : rules.sub x 0 = .ok x := by
    cases rules with
    | legacy =>
        simp only [sub, Except.ok.injEq, ← Unsigned.toNat_inj, Unsigned.toNat_subSat,
          Unsigned.toNat_zero]
        omega
    | strict =>
        have hsum : x.toNat + (0 : Gas).toNat = x.toNat := by rw [Unsigned.toNat_zero, Nat.add_zero]
        exact Gas.sub_eq_ok_iff.mpr hsum
  simp [subOrZero, hnothing]

end GasRules

/-- The gas that is refunded for a result comes to nothing only if nothing is refunded, or if there
is no gas to halve. -/
theorem RunResult.refunded_eq_zero_iff (r : RunResult) :
    Gas.cappedRefund (Job.creditDestroyed r).refund r.gasUsed = 0 ↔
      r.refund = 0 ∧ r.destroyed = ∅ ∨ r.gasUsed.toNat ≤ 1 := by
  have hrefund : (Job.creditDestroyed r).refund.toNat =
      min (r.refund.toNat + min (min r.destroyed.size ((1 <<< 64) - 1) * 24000)
        ((1 <<< 63) - 1)) ((1 <<< 63) - 1) := by
    rw [Job.refund_creditDestroyed, Gas.toNat_add, Gas.toNat_mul, Unsigned.toNat_clamp]
    rfl
  rw [Std.ExtTreeSet.eq_empty_iff_size_eq_zero, ← Unsigned.toNat_inj, ← Unsigned.toNat_inj,
    Gas.cappedRefund, Unsigned.toNat_min, Gas.toNat_half, hrefund, Unsigned.toNat_zero]
  omega

namespace Job

variable {j : Job} {outer : View} {senders : SenderCache}

/-! ## What settling shows -/

/-- The code that is kept for given code. -/
def keptCode (code : Bytes) : Option Bytes := if code.isEmpty then none else some code

theorem account?_saveCode (v : View) (address : Address) (code : Bytes) (a : Address) :
    (v.saveCode address code).account? a =
      if a = address then some { v.accountOrFresh address with code := keptCode code }
      else v.account? a := by
  simp [View.saveCode, keptCode]

theorem account?_saveChanges (r : RunResult) (v : View) (a : Address) :
    (saveChanges r v).account? a =
      match r.codeChanges[a]? with
      | some code => some { v.accountOrFresh a with code := keptCode code }
      | none => v.account? a := by
  change (r.codeChanges.toList.foldl
    (fun v change => v.saveCode change.1 change.2) v).account? a = _
  refine (read_foldl_entries r.codeChanges a (fun v : View => v.account? a)
    (fun code account => some { account.getD Account.fresh with code := keptCode code })
    (fun v code => ?_) (fun v b code hb => ?_) v).trans ?_
  · rw [account?_saveCode, if_pos rfl]
    rfl
  · rw [account?_saveCode, if_neg (Ne.symm hb)]
  · cases r.codeChanges[a]? <;> rfl

theorem account?_removeDestroyed (r : RunResult) (v : View) (a : Address) :
    (removeDestroyed r v).account? a = if a ∈ r.destroyed then none else v.account? a :=
  read_foldl_elements r.destroyed a (fun v => v.account? a) (fun _ => none)
    (fun v => by simp) (fun v b hb => by simp [Ne.symm hb]) v

/-- Paying out touches the accounts of those that are paid. -/
theorem account?_payOut (s : Settlement) (v : View) {a : Address}
    (hsender : a ≠ j.transaction.sender) (hrecipient : a ≠ j.context.feeRecipient) :
    (j.payOut s v).account? a = v.account? a := by
  simp [payOut, View.credit, hsender, hrecipient]

/-- A result that leaves the accounts of a view as they are: it destroys none of them, and the code
that it saves is the code that is there. -/
def Unnoticed (r : RunResult) (v : View) : Prop :=
  (∀ a ∈ r.destroyed, v.account? a = none) ∧
    ∀ a code, r.codeChanges[a]? = some code → a ∉ r.destroyed →
      ∃ account, v.account? a = some account ∧ account.code = keptCode code

/-- Settling leaves all accounts as they are exactly if the result goes unnoticed. -/
theorem account?_settled_iff (r : RunResult) (v : View) :
    (∀ a, (removeDestroyed r (saveChanges r v)).account? a = v.account? a) ↔ Unnoticed r v := by
  simp only [account?_removeDestroyed, account?_saveChanges]
  constructor
  · intro hsame
    refine ⟨fun a ha => ?_, fun a code hcode ha => ?_⟩
    · have hgone := hsame a
      rw [if_pos ha] at hgone
      exact hgone.symm
    · have hsaved := hsame a
      rw [if_neg ha, hcode] at hsaved
      exact ⟨_, hsaved.symm, rfl⟩
  · rintro ⟨hdestroyed, hcodes⟩ a
    by_cases ha : a ∈ r.destroyed
    · rw [if_pos ha, hdestroyed a ha]
    · rw [if_neg ha]
      cases hcode : r.codeChanges[a]? with
      | none => rfl
      | some code =>
          obtain ⟨account, haccount, hsame⟩ := hcodes a code hcode ha
          simp [View.accountOrFresh, haccount, ← hsame]

/-! ## The exit -/

/-- A run that comes to its interpreter has been paid for. -/
theorem prepared_of_call (hchain : j.isLocal = false) {program : Program} {v : View}
    (hcall : j.interpreterCall? outer senders = some (program, v)) :
    ∃ paid, j.Prepared paid (fun _ => True)
      (j.run { outer, senders := (j.validate outer senders).2 }) := by
  rcases run_cases hchain outer (j.validate outer senders).2 with
    ⟨fault, -, hrun⟩ | ⟨paid, -, hrun⟩
  · rw [interpreterCall?, hrun] at hcall
    simp [handed?] at hcall
  · exact ⟨paid, hrun ▸ prepared_perform (j.stable_true paid) _⟩

/-- Playing ends before the deposit and the end when there is less than no gas left. -/
theorem afterInterpreter_of_over {p : Play}
    (hover : j.transaction.gasLimit < p.program.result.gasUsed) :
    j.afterInterpreter p =
      { p with
        outcome := .error (.invalidGas
          (.underflow j.transaction.gasLimit p.program.result.gasUsed)) } := by
  have hsub := Gas.sub_eq_error_iff.mpr ⟨hover, rfl⟩
  simp only [afterInterpreter, hsub]

/-- What is left of a run that has used too much gas: the view below that of the interpreter, and
the result as the interpreter left it. -/
theorem played_of_overspent (hchain : j.isLocal = false) {program : Program} {v : View}
    (hcall : j.interpreterCall? outer senders = some (program, v))
    (hover : j.transaction.gasLimit < (j.outcome program v).gasUsed) :
    ∃ f, j.played outer (j.validate outer senders).2 = f ∧
      f.outer = (j.context.interpreter program v).2.pop ∧ f.inner = {} ∧ f.gasLeft = 0 ∧
      f.prepaid = true ∧
      f.error = some (.failed (.invalidGas
        (.underflow j.transaction.gasLimit (j.outcome program v).gasUsed))) ∧
      ∃ fault, f.result = { j.outcome program v with fault } := by
  obtain ⟨paid, hprepared⟩ := prepared_of_call hchain hcall
  obtain ⟨hruns, rfl, started, hstarted, hcharge⟩ := handed?_eq_some_iff.mp hcall
  generalize hrun : j.run { outer, senders := (j.validate outer senders).2 } = e at *
  have hrefused := hprepared.depositRefused
  have hinterpret : j.interpret e program =
      { execution := e.setInside (j.context.interpreter program e.inside).2
        program := program.giveBack (j.context.interpreter program e.inside).1 } := by
    simp [interpret, hruns]
  have hplay : j.play e started =
      { execution := e.setInside (j.context.interpreter program e.inside).2
        program := program.giveBack (j.context.interpreter program e.inside).1
        outcome := .error (.invalidGas
          (.underflow j.transaction.gasLimit (j.outcome program e.inside).gasUsed)) } := by
    simp only [play, hcharge, hinterpret]
    exact afterInterpreter_of_over hover
  obtain ⟨result, hresult, hclose⟩ := close_of_error (j := j) (p := j.play e started)
    (by rw [hplay]) (fun h => absurd h (by rw [hplay]; simp [Execution.setInside, hrefused]))
  have hplayed : j.played outer (j.validate outer senders).2 = close (j.play e started) := by
    rw [played, hrun, complete, hstarted]
  rw [hplay] at hclose hresult hplayed
  refine ⟨_, hplayed.trans hclose, ?_, rfl, rfl, ?_, rfl, ?_⟩
  · simp only [Execution.setInside, hrefused]
    rfl
  · change e.prepaid = true
    rw [hprepared.prepaid, hchain]
    rfl
  · rcases hresult with rfl | rfl
    · exact ⟨(j.outcome program e.inside).fault, rfl⟩
    · exact ⟨_, rfl⟩

/-- A full failure: no gas comes back, nothing goes to the sender, the fee is the price of the
whole limit, and neither the receipt nor any account shows what the run recorded.  The settlement
`s` was paid out of the view `left` that the run left. -/
structure Forfeits (j : Job) (e : Execution) (s : Settlement) (left : View) : Prop where
  gasLeft : e.gasLeft = 0
  gasUsed : (j.receipt e).gasUsed = j.transaction.gasLimit
  paidFees : e.paidFees = j.transaction.gasLimit.price j.transaction.payload.gasPrice
  credited : s.leftover = 0 ∧ s.refund = 0
  logs : (j.receipt e).logs = []
  accounts : ∀ a, e.outer.account? a = (j.payOut s left).account? a

/-- What becomes of a run that has used too much gas.  Its view is forgotten and no gas is left
over, but its result is settled, so it is a full failure exactly if the result has nothing in it to
refund, to log or to do to the accounts. -/
theorem overspent_forfeits_iff (hchain : j.isLocal = false)
    (haccepted : (j.execute outer senders).accepted = true) {program : Program} {v : View}
    (hcall : j.interpreterCall? outer senders = some (program, v))
    (hover : j.transaction.gasLimit < (j.outcome program v).gasUsed) :
    ∃ s, (j.execute outer senders).settlement = some s ∧
      (j.execute outer senders).error = some (.failed (.invalidGas
        (.underflow j.transaction.gasLimit (j.outcome program v).gasUsed))) ∧
      s.gasLeft = 0 ∧
      (j.execute outer senders).outer =
        removeDestroyed (j.outcome program v) (saveChanges (j.outcome program v)
          (j.payOut s (j.context.interpreter program v).2.pop)) ∧
      (j.Forfeits (j.execute outer senders) s (j.context.interpreter program v).2.pop ↔
        ((j.outcome program v).refund = 0 ∧ (j.outcome program v).destroyed = ∅ ∨
          (j.outcome program v).gasUsed.toNat ≤ 1) ∧
        (j.outcome program v).acceptedLogs = [] ∧
        Unnoticed (j.outcome program v)
          (j.payOut s (j.context.interpreter program v).2.pop)) := by
  obtain ⟨f, hplayed, houter, hclean, hgas, hprepaid, herror, fault, hresult⟩ :=
    played_of_overspent hchain hcall hover
  rw [execute_of_accepted haccepted, hplayed, finalize_of_clean hchain hclean]
  generalize j.outcome program v = r at *
  generalize (j.context.interpreter program v).2.pop = left at *
  have hrefund : (j.settlement (creditDestroyed f.result) f.gasLeft).gasRefund =
      Gas.cappedRefund (creditDestroyed r).refund r.gasUsed := by
    rw [hresult]
    rfl
  have hsettled : removeDestroyed (creditDestroyed f.result) (j.paidOut f) =
      removeDestroyed r (saveChanges r
        (j.payOut (j.settlement (creditDestroyed f.result) f.gasLeft) left)) := by
    rw [paidOut, hprepaid, houter, hresult]
    rfl
  refine ⟨_, rfl, herror, hgas, hsettled, ?_⟩
  rw [← r.refunded_eq_zero_iff, ← hrefund]
  have hlogs : f.result.acceptedLogs = r.acceptedLogs := by
    rw [hresult]
    rfl
  generalize hs : j.settlement (creditDestroyed f.result) f.gasLeft = s at *
  have hprice : s.gasPrice = j.transaction.payload.gasPrice := by rw [← hs, settlement]
  have hlimit : s.gasLimit = j.transaction.gasLimit := by rw [← hs, settlement]
  have hleftover : s.gasLeft = 0 := by rw [← hs, settlement, hgas]
  constructor
  · intro hforfeits
    have hleft := hforfeits.gasLeft
    simp only [hgas] at hleft
    have haccounts := hforfeits.accounts
    simp only [hsettled] at haccounts
    exact ⟨(GasRules.add_zero_eq_zero_iff _ _).mp hleft, hlogs ▸ hforfeits.logs,
      (account?_settled_iff r _).mp haccounts⟩
  · rintro ⟨hzero, hnone, hunnoticed⟩
    have hleft : j.context.gasRules.add f.gasLeft s.gasRefund = 0 := by
      rw [hgas]
      exact (GasRules.add_zero_eq_zero_iff _ _).mpr hzero
    have hfee : s.fee = j.transaction.gasLimit.price j.transaction.payload.gasPrice := by
      have hwhole : Unsigned.subSat s.gasLimit (Unsigned.addSat s.gasLeft s.gasRefund) =
          j.transaction.gasLimit := by
        rw [hleftover, hzero, hlimit, ← Unsigned.toNat_inj, Unsigned.toNat_subSat,
          Unsigned.toNat_addSat, Unsigned.toNat_zero]
        omega
      rw [Settlement.fee, hwhole, hprice]
    have hnothing : Gas.price 0 s.gasPrice = 0 := by
      rw [← Unsigned.toNat_inj, Gas.toNat_price, Unsigned.toNat_zero, Nat.zero_mul]
      rfl
    exact
      { gasLeft := hleft
        gasUsed := by
          change j.context.gasRules.subOrZero _ (j.context.gasRules.add _ _) = _
          rw [hleft, GasRules.subOrZero_zero]
        paidFees := by simp only [hprepaid, if_true, hfee]
        credited := ⟨by rw [Settlement.leftover, hleftover, hnothing],
          by rw [Settlement.refund, hzero, hnothing]⟩
        logs := hlogs.trans hnone
        accounts := fun a => by
          simp only [hsettled]
          exact (account?_settled_iff r _).mpr hunnoticed a }

/-- A call of a contract that counts more gas than there is, after the given steps. -/
def overspendingCall (steps : List ScriptStep) : Job :=
  sample
    { gasPrice := 2, gasLimit := 50000, receiver := Address.sample.toBytes, value := 8 }
    [([1], steps ++ [ .act { name := "RAW" } (.rawSpend 1000000) ])]

theorem overspent_forfeits_of_nothing_recorded :
    ∃ s left, ((overspendingCall []).execute View.sample (SenderCache.ofCapacity 1)).settlement =
        some s ∧
      (overspendingCall []).Forfeits
        ((overspendingCall []).execute View.sample (SenderCache.ofCapacity 1)) s left := by
  have hrecorded :
      ((overspendingCall []).execute View.sample (SenderCache.ofCapacity 1)).accepted = true ∧
        ((overspendingCall []).interpreterCall? View.sample
          (SenderCache.ofCapacity 1)).isSome = true ∧
        ∀ call ∈ (overspendingCall []).interpreterCall? View.sample (SenderCache.ofCapacity 1),
          (overspendingCall []).transaction.gasLimit <
              ((overspendingCall []).outcome call.1 call.2).gasUsed ∧
            ((overspendingCall []).outcome call.1 call.2).refund = 0 ∧
            ((overspendingCall []).outcome call.1 call.2).destroyed = ∅ ∧
            ((overspendingCall []).outcome call.1 call.2).acceptedLogs = [] ∧
            ((overspendingCall []).outcome call.1 call.2).codeChanges = ∅ := by
    decide +kernel
  obtain ⟨haccepted, hcalled, hcalls⟩ := hrecorded
  obtain ⟨⟨program, v⟩, hcall⟩ := Option.isSome_iff_exists.mp hcalled
  obtain ⟨hover, hrefund, hdestroyed, hlogs, hcodes⟩ := hcalls (program, v) hcall
  obtain ⟨s, hsettled, -, -, -, hforfeits⟩ := overspent_forfeits_iff rfl haccepted hcall hover
  have hunnoticed : ∀ w, Unnoticed ((overspendingCall []).outcome program v) w := by
    intro w
    refine ⟨fun a ha => ?_, fun a code hcode => ?_⟩
    · rw [hdestroyed] at ha
      exact absurd ha Std.ExtTreeSet.not_mem_empty
    · rw [hcodes, Std.ExtTreeMap.getElem?_empty] at hcode
      simp at hcode
  exact ⟨s, _, hsettled, hforfeits.mpr ⟨.inl ⟨hrefund, hdestroyed⟩, hlogs, hunnoticed _⟩⟩

/-- A run that records one thing of each kind before it uses too much gas. -/
def recordingCall : Job :=
  overspendingCall
    [ .act { name := "LOG" } (.log [] [3] false),
      .act { name := "DESTROY" } .markDestroyed,
      .act { name := "CODE", target := some Envelope.neutral.signer } (.changeCode [6, 7]),
      .act { name := "REFUND" } (.refund 400000) ]

/-- The recorded things are settled: gas is left, the sender is paid more than it paid for the gas,
the log is in the receipt, the called contract is gone and the sender has code. -/
theorem overspent_keeps_recorded :
    (recordingCall.execute View.sample (SenderCache.ofCapacity 1)).accepted = true ∧
      ((recordingCall.interpreterCall? View.sample (SenderCache.ofCapacity 1)).any fun call =>
        recordingCall.transaction.gasLimit <
          (recordingCall.outcome call.1 call.2).gasUsed) = true ∧
      (recordingCall.execute View.sample (SenderCache.ofCapacity 1)).gasLeft ≠ 0 ∧
      ((recordingCall.execute View.sample (SenderCache.ofCapacity 1)).settlement.any fun s =>
        recordingCall.gasPrepayment < s.refund) = true ∧
      (recordingCall.receipt
        (recordingCall.execute View.sample (SenderCache.ofCapacity 1))).logs.length = 1 ∧
      View.sample.hasAccount Address.sample = true ∧
      (recordingCall.execute View.sample (SenderCache.ofCapacity 1)).outer.hasAccount
        Address.sample = false ∧
      (recordingCall.execute View.sample (SenderCache.ofCapacity 1)).outer.code?
        recordingCall.transaction.sender = some [6, 7] := by
  decide +kernel

end Job

end LedgerExec
