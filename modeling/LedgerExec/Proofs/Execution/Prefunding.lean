import LedgerExec.Proofs.Execution.Deposits
import LedgerExec.Proofs.Execution.GasAccount
import LedgerExec.Proofs.Execution.Performed
set_option autoImplicit false

/-!
# Money at the address of a new contract

The address of a contract can be foretold, so it may hold money before the contract is
created.  A creation starts from a new account in the view of the run, whatever was there,
and moves the value into it; the view of the transaction still shows what was there.

`Job.Holding` follows both balances through the run.  At its end one of them is left
(`Job.Holds`): that of the run if it is committed, that of the transaction if it is forgotten,
for the account of a contract whose code was refused is made only where there is none.  So
a creation that succeeds leaves its value alone, and the money that was there is lost
(`balance_newAddress`).
-/

namespace LedgerExec

/-- In one run the interpreter leaves alone what an address holds, in its view and in the one
below, and does not mark the address for removal. -/
structure Interpreter.LeavesFunds (i : Interpreter) (program : Program) (v : View) (a : Address) :
    Prop where
  inside : (i program v).2.balance a = v.balance a
  below : (i program v).2.pop.balance a = v.pop.balance a
  spared : a ∉ (i program v).1.result.destroyed

namespace Execution

/-- A view that is put back into a run is shown by the run, even if it is a root view. -/
theorem account?_inside_setInside (e : Execution) (w : View) (a : Address) :
    (e.setInside w).inside.account? a = w.account? a := by
  obtain ⟨top, below⟩ := w
  cases below with
  | cons l rest => rfl
  | nil =>
      change Layer.account? [top, top] a = Layer.account? [top] a
      simp only [Layer.account?]
      cases top.accounts[a]? <;> rfl

theorem balance_inside_setInside (e : Execution) (w : View) (a : Address) :
    (e.setInside w).inside.balance a = w.balance a := by
  rw [View.balance, account?_inside_setInside, View.balance]

end Execution

namespace Job

variable {j : Job} {outer : View} {senders : SenderCache} {funded before : Balance}
  {e : Execution} {p : Play}

/-! ## The second phase -/

/-- A play of init code in which the address of the new contract holds `funded` in the view of the
run, and `before` in that of the transaction. -/
structure Holding (j : Job) (funded before : Balance) (p : Play) : Prop where
  error : p.execution.error = none
  newContract : p.execution.newContract = some j.newAddress
  inside : p.execution.inside.balance j.newAddress = funded
  outer : p.execution.outer.balance j.newAddress = before
  spared : j.newAddress ∉ p.program.result.destroyed

/-- What the address holds when the run is over. -/
structure Holds (j : Job) (funded before : Balance) (e : Execution) : Prop where
  clean : e.inner = {}
  stands : e.error = none → e.outer.balance j.newAddress = funded
  forgotten : e.error ≠ none → e.outer.balance j.newAddress = before
  spared : j.newAddress ∉ e.result.destroyed

theorem holds_of_error {fault : RunFault} (houtcome : p.outcome = .error fault)
    (hnew : p.execution.newContract = some j.newAddress)
    (houter : p.execution.outer.balance j.newAddress = before)
    (hspared : j.newAddress ∉ p.program.result.destroyed) : j.Holds funded before (close p) := by
  obtain ⟨result, hresult, hclose⟩ := close_of_error (j := j) houtcome fun _ => hnew
  rw [hclose]
  exact
    { clean := rfl
      stands := fun herror => absurd herror (Option.some_ne_none _)
      forgotten := fun _ => (j.sameStanding_kept _ _ _).1.trans houter
      spared := by rcases hresult with rfl | rfl <;> exact hspared }

theorem holds_conclude (houtcome : p.outcome = .ok ()) (h : j.Holding funded before p) :
    j.Holds funded before (close (conclude p)) := by
  have hconcluded := concluded_conclude p
  generalize conclude p = concluded at hconcluded ⊢
  cases hconcluded with
  | clean =>
      simp only [close, houtcome]
      exact
        { clean := rfl
          stands := fun _ => (View.balance_pop_commit _ _).trans h.inside
          forgotten := fun hfailed => absurd h.error hfailed
          spared := h.spared }
  | failed fault =>
      exact holds_of_error rfl h.newContract h.outer Std.ExtTreeSet.not_mem_empty
  | reverted =>
      simp only [close]
      rw [Execution.commit_of_clean _ rfl]
      exact
        { clean := rfl
          stands := fun hnone => absurd hnone (Option.some_ne_none _)
          forgotten := fun _ => h.outer
          spared := Std.ExtTreeSet.not_mem_empty }

/-- The deposit writes code, which is no money. -/
theorem holds_wrapUp (houtcome : p.outcome = .ok ()) (h : j.Holding funded before p) :
    j.Holds funded before (close (j.wrapUp p)) := by
  have hdeposited := deposited_depositNew j p
  simp only [wrapUp]
  generalize j.depositNew p = deposited at hdeposited ⊢
  cases hdeposited with
  | skipped =>
      simp only [houtcome]
      exact holds_conclude houtcome h
  | refused address _ _ _ fault =>
      simp only [houtcome]
      rw [conclude_of_fault fault rfl]
      exact holds_of_error rfl h.newContract h.outer Std.ExtTreeSet.not_mem_empty
  | unpaid => exact holds_of_error rfl h.newContract h.outer h.spared
  | stored _ address cost left _ program hcharge hcreated =>
      obtain ⟨-, rfl⟩ := Program.charge_eq_ok_iff.mp hcharge
      have hsaved := (p.execution.inside.balance_saveCode address p.program.result.output
        j.newAddress).trans h.inside
      exact holds_conclude rfl { h with inside := hsaved }

theorem holds_afterInterpreter (houtcome : p.outcome = .ok ()) (h : j.Holding funded before p) :
    j.Holds funded before (close (j.afterInterpreter p)) := by
  unfold afterInterpreter
  split
  · exact holds_of_error rfl h.newContract h.outer h.spared
  · exact holds_wrapUp houtcome { h with }

/-- The second phase of a creation, if its interpreter leaves the money alone. -/
theorem holds_complete (herror : e.error = none)
    (hnew : e.program ≠ none → e.newContract = some j.newAddress)
    (hinside : e.inside.balance j.newAddress = funded)
    (houter : e.outer.balance j.newAddress = before)
    (hspared : j.newAddress ∉ e.result.destroyed)
    (hfresh : ∀ program, e.program = some program → program.result = {})
    (hinterpreter : ∀ program v, j.handed? e = some (program, v) →
      j.context.interpreter.LeavesFunds program v j.newAddress) :
    j.Holds funded before (j.complete e) := by
  unfold complete
  split
  · exact
      { clean := rfl
        stands := fun _ => (View.balance_pop_commit _ _).trans hinside
        forgotten := fun hfailed => absurd herror hfailed
        spared := hspared }
  · rename_i program hprogram
    have hnew := hnew (by simp [hprogram])
    have hnothing : j.newAddress ∉ program.result.destroyed := by
      rw [hfresh program hprogram]
      exact Std.ExtTreeSet.not_mem_empty
    unfold play
    split
    · exact holds_of_error rfl hnew houter hnothing
    · rename_i charged hcharge
      unfold interpret
      split
      · rename_i hruns
        have hleaves := hinterpreter charged e.inside
          (handed?_eq_some_iff.mpr ⟨hruns, rfl, program, hprogram, hcharge⟩)
        have hshown := (e.balance_inside_setInside (j.context.interpreter charged e.inside).2
          j.newAddress).trans hleaves.inside
        exact holds_afterInterpreter rfl
          { error := herror
            newContract := hnew
            inside := hshown.trans hinside
            outer := hleaves.below.trans houter
            spared := hleaves.spared }
      · obtain ⟨-, rfl⟩ := Program.charge_eq_ok_iff.mp hcharge
        exact holds_afterInterpreter rfl
          { error := herror
            newContract := hnew
            inside := hinside
            outer := houter
            spared := hnothing }

/-! ## The first phase -/

/-- A transfer to an empty account leaves just what was sent. -/
theorem balance_of_transfer {v w : View} {source target : Address} {amount : Balance}
    (htransfer : v.transfer source target amount = .ok w) (hother : target ≠ source)
    (hempty : v.balance target = 0) : w.balance target = amount := by
  obtain ⟨u, hdebit, rfl⟩ := View.transfer_eq_ok_iff.mp htransfer
  have hkept := View.balance_debit hdebit target
  have hamount := amount.isLt
  rw [if_neg hother, hempty, Unsigned.toNat_zero] at hkept
  rw [View.balance_credit, if_pos rfl, ← Unsigned.toNat_inj, Unsigned.toNat_addSat]
  omega

/-- The account of a new contract holds nothing before the value moves. -/
theorem balance_of_entered {paid v : View} (hcreation : j.transaction.isCreation = true)
    (hentered : j.Entered paid v) : v.balance j.newAddress = 0 := by
  cases hentered with
  | untouched hcall => simp [hcreation] at hcall
  | created => rw [View.balance_create, if_pos rfl]
  | contract => rw [View.balance_setUpContract, View.balance_create, if_pos rfl]
  | adopted address hreceiver =>
      have hcall := isCreation_of_receiver hreceiver
      simp [hcreation] at hcall

/-- The first two phases of a creation that has been paid for. -/
theorem holds_played (hchain : j.isLocal = false) (hcreation : j.transaction.isCreation = true)
    (hsender : j.newAddress ≠ j.transaction.sender) {paid : View}
    (hdebit : (outer.raiseNonce j.transaction.sender).debit j.transaction.sender j.prepayment =
      .ok paid)
    (hinterpreter : ∀ program v, j.interpreterCall? outer senders = some (program, v) →
      j.context.interpreter.LeavesFunds program v j.newAddress) :
    j.Holds j.transaction.payload.value (outer.balance j.newAddress)
      (j.played outer (j.validate outer senders).2) := by
  have hrun := run_of_paid hchain hdebit (j.validate outer senders).2
  have hprepared := prepared_perform (j.stable_true paid) (j.validate outer senders).2
  have hperformed := j.performed_perform paid (j.validate outer senders).2 (!j.isLocal)
  rw [← hrun] at hprepared hperformed
  have hbefore : paid.balance j.newAddress = outer.balance j.newAddress := by
    have hkept := View.balance_debit hdebit j.newAddress
    rw [if_neg hsender, View.balance_raiseNonce] at hkept
    exact Unsigned.toNat_inj.mp hkept
  have hspared : j.newAddress ∉
      (j.run { outer, senders := (j.validate outer senders).2 }).result.destroyed := by
    rw [hprepared.quiet.destroyed]
    exact Std.ExtTreeSet.not_mem_empty
  unfold played
  cases hperformed with
  | stopped herror hprogram =>
      simp only [complete, hprogram]
      rw [Execution.commit_of_clean _ (hprepared.stopped herror).1]
      exact
        { clean := (hprepared.stopped herror).1
          stands := fun hnone => absurd hnone herror
          forgotten := fun _ => by rw [hprepared.outer, hbefore]
          spared := hspared }
  | refused hcall => simp [hcreation] at hcall
  | moved v herror _ hentered htransfer =>
      rw [target_of_creation hcreation] at htransfer
      have hfunded := balance_of_transfer htransfer hsender (balance_of_entered hcreation hentered)
      have hthere := hprepared.outer ▸ hbefore
      exact holds_complete herror (fun hprogram => hprepared.named hprogram hcreation) hfunded
        hthere hspared (fun program hprogram => (hprepared.program program hprogram).1)
        hinterpreter

/-! ## The whole -/

/-- Settling touches the balances of those that it pays and of those that it removes. -/
theorem balance_finalize (hchain : j.isLocal = false) (hclean : e.inner = {}) {a : Address}
    (hsender : a ≠ j.transaction.sender) (hrecipient : a ≠ j.context.feeRecipient)
    (hspared : a ∉ e.result.destroyed) :
    (j.finalize e).outer.balance a = e.outer.balance a := by
  rw [View.balance, account?_finalize hchain hclean hsender hrecipient hspared,
    account?_saveChanges]
  split
  · exact e.outer.balance_accountOrFresh a
  · rfl

/-- What the address of a new contract holds after its creation.  If the creation succeeds, that is
its value, which is what was there and the value exactly if nothing was there; if it fails, it is
what was there. -/
theorem balance_newAddress (hchain : j.isLocal = false)
    (hcreation : j.transaction.isCreation = true)
    (hsender : j.newAddress ≠ j.transaction.sender)
    (hrecipient : j.newAddress ≠ j.context.feeRecipient)
    (hinterpreter : ∀ program v, j.interpreterCall? outer senders = some (program, v) →
      j.context.interpreter.LeavesFunds program v j.newAddress)
    (haccepted : (j.execute outer senders).accepted = true) :
    ((j.receipt (j.execute outer senders)).isSuccessful = true →
      (j.execute outer senders).outer.balance j.newAddress = j.transaction.payload.value ∧
        (((j.execute outer senders).outer.balance j.newAddress).toNat =
            (outer.balance j.newAddress).toNat + j.transaction.payload.value.toNat ↔
          outer.balance j.newAddress = 0)) ∧
      ((j.receipt (j.execute outer senders)).isSuccessful = false →
        (j.execute outer senders).outer.balance j.newAddress = outer.balance j.newAddress) := by
  have hholds : j.Holds j.transaction.payload.value (outer.balance j.newAddress)
      (j.played outer (j.validate outer senders).2) := by
    cases hdebit :
        (outer.raiseNonce j.transaction.sender).debit j.transaction.sender j.prepayment with
    | error fault =>
        rw [played_of_unpaid hchain hdebit]
        exact
          { clean := rfl
            stands := fun hnone => absurd hnone (Option.some_ne_none _)
            forgotten := fun _ => View.balance_raiseNonce _ _ _
            spared := Std.ExtTreeSet.not_mem_empty }
    | ok paid => exact holds_played hchain hcreation hsender hdebit hinterpreter
  have hsettled := balance_finalize hchain hholds.clean hsender hrecipient hholds.spared
  have hsuccess := j.isSuccessful_receipt (j.execute outer senders)
  have herror : (j.execute outer senders).error =
      (j.played outer (j.validate outer senders).2).error := by
    rw [execute_of_accepted haccepted, finalize_of_clean hchain hholds.clean]
  rw [herror] at hsuccess
  rw [← execute_of_accepted haccepted] at hsettled
  rw [hsettled]
  refine ⟨fun hgood => ?_, fun hbad => ?_⟩
  · have hfunded := hholds.stands (hsuccess.mp hgood)
    rw [hfunded]
    refine ⟨rfl, ?_⟩
    rw [← Unsigned.toNat_inj, Unsigned.toNat_zero]
    omega
  · refine hholds.forgotten fun hnone => ?_
    rw [hsuccess.mpr hnone] at hbad
    exact nomatch hbad

/-- A creation of a contract, with or without init code. -/
def smallCreation (data : Bytes) : Job :=
  sample { gasPrice := 2, gasLimit := 60000, value := 7, data }
    [([1],
      [ .act { name := "SEND" } (.transfer Address.sample 0),
        .act { name := "RETURN" } (.returnData [2, 3]) ])]

end Job

/-- A state in which the address of a contract holds money before the contract is created. -/
def View.prefunded : View :=
  View.sample.put (Job.smallCreation []).newAddress (Account.ofBalance 5000)

namespace Job

/-- The contract has its value and its code, and not what its address had held. -/
theorem balance_smallCreation :
    (((smallCreation [1]).execute View.prefunded (SenderCache.ofCapacity 1)).outer.balance
        (smallCreation [1]).newAddress).toNat = 7 ∧
      ¬(((smallCreation [1]).execute View.prefunded (SenderCache.ofCapacity 1)).outer.balance
          (smallCreation [1]).newAddress).toNat = 5000 + 7 := by
  have hfacts :
      ((smallCreation [1]).execute View.prefunded (SenderCache.ofCapacity 1)).accepted = true ∧
        ((smallCreation [1]).receipt ((smallCreation [1]).execute View.prefunded
          (SenderCache.ofCapacity 1))).isSuccessful = true ∧
        ∀ call ∈ (smallCreation [1]).interpreterCall? View.prefunded (SenderCache.ofCapacity 1),
          ((smallCreation [1]).context.interpreter call.1 call.2).2.balance
              (smallCreation [1]).newAddress =
            call.2.balance (smallCreation [1]).newAddress ∧
          ((smallCreation [1]).context.interpreter call.1 call.2).2.pop.balance
              (smallCreation [1]).newAddress =
            call.2.pop.balance (smallCreation [1]).newAddress ∧
          (smallCreation [1]).newAddress ∉
            ((smallCreation [1]).context.interpreter call.1 call.2).1.result.destroyed := by
    decide +kernel
  have haddress : (smallCreation [1]).newAddress ≠ (smallCreation [1]).transaction.sender ∧
      (smallCreation [1]).newAddress ≠ (smallCreation [1]).context.feeRecipient ∧
      (View.prefunded.balance (smallCreation [1]).newAddress).toNat = 5000 := by
    decide +kernel
  obtain ⟨haccepted, hsuccess, hcalls⟩ := hfacts
  obtain ⟨hsender, hrecipient, hbefore⟩ := haddress
  obtain ⟨hgood, -⟩ := balance_newAddress rfl rfl hsender hrecipient
    (fun program v hcall =>
      have hleaves := hcalls (program, v) hcall
      ⟨hleaves.1, hleaves.2.1, hleaves.2.2⟩) haccepted
  obtain ⟨hvalue, hsum⟩ := hgood hsuccess
  have hamount : (smallCreation [1]).transaction.payload.value.toNat = 7 := rfl
  rw [hbefore, hamount] at hsum
  refine ⟨by rw [hvalue, hamount], fun hkept => ?_⟩
  have hnothing := hsum.mp hkept
  rw [hnothing] at hbefore
  exact nomatch hbefore

/-- A creation without init code succeeds, too, at an address with 5000, and leaves it with 7. -/
theorem smallCreation_destroys_money :
    ((smallCreation []).execute View.prefunded (SenderCache.ofCapacity 1)).accepted = true ∧
      (smallCreation []).isLocal = false ∧
      (smallCreation []).transaction.isCreation = true ∧
      (smallCreation []).newAddress ≠ (smallCreation []).transaction.sender ∧
      (smallCreation []).newAddress ≠ (smallCreation []).context.feeRecipient ∧
      ((smallCreation []).interpreterCall? View.prefunded (SenderCache.ofCapacity 1)).isNone =
        true ∧
      ((smallCreation []).receipt ((smallCreation []).execute View.prefunded
        (SenderCache.ofCapacity 1))).isSuccessful = true ∧
      (View.prefunded.balance (smallCreation []).newAddress).toNat = 5000 ∧
      (smallCreation []).transaction.payload.value.toNat = 7 ∧
      (((smallCreation []).execute View.prefunded (SenderCache.ofCapacity 1)).outer.balance
        (smallCreation []).newAddress).toNat = 7 := by
  decide +kernel

end Job

end LedgerExec
