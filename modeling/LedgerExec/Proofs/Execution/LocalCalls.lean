import LedgerExec.Proofs.Execution.Performed
import LedgerExec.Proofs.Execution.Settled
import LedgerExec.Proofs.State.Balances
set_option autoImplicit false

/-!
# What a local call does to balances and nonces

A local call is not validated, raises no nonce, pays nothing in advance and settles
nothing.  But its run is committed to the outer view like any other.  A call that fails
leaves every balance and every nonce alone; one that does not fail leaves the value of
the transaction with its target, and a creation leaves a new account in the place of the
one that was there (`standing_of_local`).

The value moves in the first phase (`Job.Performed`).  In the second the interpreter
may not touch balances or nonces, and what is kept of a refused contract has none.
-/

namespace LedgerExec

/-- The execution has an error, or its result a fault. -/
def Execution.Failed (e : Execution) : Prop := e.error ≠ none ∨ e.result.fault ≠ none

namespace Job

variable {j : Job} {outer paid : View} {senders : SenderCache} {e : Execution}

/-! ## What is written -/

/-- The view with a new account where the transaction creates a contract. -/
def cleared (j : Job) (outer : View) : View :=
  if j.transaction.isCreation then outer.create j.newAddress else outer

theorem cleared_of_call (hcall : j.transaction.isCreation = false) (outer : View) :
    j.cleared outer = outer := by
  rw [cleared, hcall]
  rfl

theorem cleared_of_creation (hcreates : j.transaction.isCreation = true) (outer : View) :
    j.cleared outer = outer.create j.newAddress := by
  rw [cleared, if_pos hcreates]

theorem sameStanding_adopt (v : View) (address : Address) :
    v.SameStanding (adopt address v) := by
  apply adopt_induction
  · intro hmissing
    exact (v.sameStanding_create_of_missing hmissing).trans
      (View.sameStanding_setUpContract _ address)
  · exact v.sameStanding_setUpContract address
  · exact .refl v

/-- But for the creation, nothing that is written before the value moves shows in a balance or a
nonce. -/
theorem Entered.sameStanding {v : View} (h : j.Entered paid v) :
    (j.cleared paid).SameStanding v := by
  cases h with
  | untouched hcall =>
      rw [cleared_of_call hcall]
      exact paid.sameStanding_push
  | created hcreates =>
      rw [cleared_of_creation hcreates]
      exact paid.sameStanding_push.create j.newAddress
  | contract hcreates =>
      rw [cleared_of_creation hcreates]
      exact (paid.sameStanding_push.create j.newAddress).trans
        (View.sameStanding_setUpContract _ j.newAddress)
  | adopted address hreceiver =>
      rw [cleared_of_call (isCreation_of_receiver hreceiver)]
      exact paid.sameStanding_push.trans (sameStanding_adopt paid.push address)

/-! ## The run -/

/-- What a run leaves of balances and nonces: nothing has changed, or the value has moved. -/
def Settles (j : Job) (paid : View) (f : Execution) : Prop :=
  (f.Failed → paid.SameStanding f.outer) ∧
    (¬f.Failed → ∃ w, (j.cleared paid).transfer j.transaction.sender j.target
      j.transaction.payload.value = .ok w ∧ w.SameStanding f.outer)

theorem settles_of_failed {f : Execution} (hfailed : f.Failed)
    (hsame : paid.SameStanding f.outer) : j.Settles paid f :=
  ⟨fun _ => hsame, fun hstands => absurd hfailed hstands⟩

theorem settles_of_stands {f : Execution} (herror : f.error = none)
    (hfault : f.result.fault = none) {w : View}
    (htransfer : (j.cleared paid).transfer j.transaction.sender j.target
      j.transaction.payload.value = .ok w) (hsame : w.SameStanding f.outer) :
    j.Settles paid f :=
  ⟨fun hfailed => absurd hfailed (not_or.mpr ⟨not_not_intro herror, not_not_intro hfault⟩),
    fun _ => ⟨w, htransfer, hsame⟩⟩

theorem settles_of_completed {f : Execution}
    (hcompleted : j.Completed paid View.SameStanding e f) : j.Settles paid f := by
  cases hcompleted with
  | forgotten herror houter =>
      refine settles_of_failed (.inl herror) ?_
      rcases houter with hpaid | ⟨-, hkept⟩
      · rw [hpaid]
        exact .refl paid
      · rw [hkept]
        exact j.sameStanding_kept paid true
  | refused hcall herror hfault v hentered houter =>
      have hsame := hentered.sameStanding
      rw [cleared_of_call hcall] at hsame
      refine settles_of_failed (.inr hfault) ?_
      rw [houter]
      exact hsame.trans v.sameStanding_pop_commit
  | moved herror hfault v moved played hentered htransfer hplayed houter =>
      obtain ⟨w, htransfer', hsame⟩ := hentered.sameStanding.transfer htransfer
      refine settles_of_stands herror hfault htransfer' ?_
      rw [houter]
      exact (hsame.trans hplayed).trans played.sameStanding_pop_commit

/-- A local call is its first two phases. -/
theorem execute_of_local (hlocal : j.isLocal = true) (outer : View) (senders : SenderCache) :
    j.execute outer senders = j.complete (j.perform { outer, senders, prepaid := !j.isLocal }) := by
  simp only [execute, validate, hlocal, if_true, finalize, played, run]
  rfl

/-- When the transfer of a local call shows. -/
theorem sameStanding_transfer_iff {w : View}
    (htransfer : (j.cleared outer).transfer j.transaction.sender j.target
      j.transaction.payload.value = .ok w) :
    outer.SameStanding w ↔
      (j.transaction.payload.value = 0 ∨ j.transaction.sender = j.target) ∧
        (j.transaction.isCreation = true →
          outer.balance j.newAddress = 0 ∧ outer.nonce j.newAddress = 0) := by
  have hsame : (j.cleared outer).SameStanding w ↔
      j.transaction.payload.value = 0 ∨ j.transaction.sender = j.target := by
    rw [← View.balance_transfer_same_iff htransfer]
    exact ⟨fun h a => (h a).1, fun h a => ⟨h a, View.nonce_transfer htransfer a⟩⟩
  cases hcreates : j.transaction.isCreation with
  | false =>
      rw [cleared_of_call hcreates] at hsame
      rw [hsame]
      exact ⟨fun h => ⟨h, fun hfalse => nomatch hfalse⟩, fun h => h.1⟩
  | true =>
      rw [cleared_of_creation hcreates] at hsame htransfer
      rw [target_of_creation hcreates] at hsame htransfer ⊢
      have hcreate := outer.sameStanding_create_iff j.newAddress
      constructor
      · intro h
        -- the sender has what it had, so it has sent nothing to another address
        have hnothing : j.transaction.payload.value = 0 ∨ j.transaction.sender = j.newAddress := by
          by_cases hself : j.transaction.sender = j.newAddress
          · exact .inr hself
          · have hsource := View.balance_transfer_source htransfer hself
            rw [(h j.transaction.sender).1, View.balance_create, if_neg hself] at hsource
            refine .inl (Unsigned.toNat_inj.mp ?_)
            rw [Unsigned.toNat_zero]
            omega
        exact ⟨hnothing, fun _ => hcreate.mp (h.trans (hsame.mpr hnothing).symm)⟩
      · rintro ⟨hnothing, hfresh⟩
        exact (hcreate.mpr (hfresh rfl)).trans (hsame.mpr hnothing)

/-- A local call that fails leaves all balances and nonces as they are.  One that does not fail
moves its value in the outer view, and so changes them unless the value is zero or stays where it
is, and the address of a creation had nothing. -/
theorem standing_of_local (hlocal : j.isLocal = true)
    (hinterpreter : ∀ program v, j.interpreterCall? outer senders = some (program, v) →
      j.context.interpreter.Contained program v ∧
        v.SameStanding (j.context.interpreter program v).2) :
    let e := j.execute outer senders
    (e.Failed → outer.SameStanding e.outer) ∧
      (¬e.Failed → ∃ w, (j.cleared outer).transfer j.transaction.sender j.target
        j.transaction.payload.value = .ok w ∧ w.SameStanding e.outer) ∧
      (outer.SameStanding e.outer ↔ e.Failed ∨
        (j.transaction.payload.value = 0 ∨ j.transaction.sender = j.target) ∧
          (j.transaction.isCreation = true →
            outer.balance j.newAddress = 0 ∧ outer.nonce j.newAddress = 0)) := by
  intro e
  have hcalls : ∀ program v,
      j.handed? (j.perform { outer, senders, prepaid := !j.isLocal }) = some (program, v) →
        j.context.interpreter.Contained program v ∧
          v.SameStanding (j.context.interpreter program v).2 := by
    intro program v hcall
    refine hinterpreter program v ?_
    simp only [interpreterCall?, validate, run, hlocal, if_true] at hcall ⊢
    exact hcall
  have hsettles : j.Settles outer e := by
    have hexecute : e = j.complete (j.perform { outer, senders, prepaid := !j.isLocal }) :=
      execute_of_local hlocal outer senders
    rw [hexecute]
    exact settles_of_completed (completed_complete (j.performed_perform outer senders _)
      (prepared_perform (j.stable_true outer) senders) .refl
      (fun _ w u code hu => hu.trans (u.sameStanding_saveCode _ code))
      fun program v hcall =>
        ⟨(hcalls program v hcall).1, fun w hw => hw.trans (hcalls program v hcall).2⟩)
  obtain ⟨hfailed, hstands⟩ := hsettles
  refine ⟨hfailed, hstands, ?_⟩
  by_cases he : e.Failed
  · exact ⟨fun _ => .inl he, fun _ => hfailed he⟩
  · obtain ⟨w, htransfer, hsame⟩ := hstands he
    rw [or_iff_right he, ← sameStanding_transfer_iff htransfer]
    exact ⟨fun h => h.trans hsame.symm, fun h => h.trans hsame⟩

/-- A local call of a contract that sends it some money; the program of the contract only spends
gas. -/
def simulated (value : Balance) : Job :=
  { sample { gasLimit := 50000, receiver := Address.sample.toBytes, value }
      [([1], [.act { name := "SPEND", gas := 5000 } (.spend 5000 "work")])] with
    isLocal := true }

/-- The program runs to its end, and the contract has the money in the view of the caller. -/
theorem standing_of_local_simulated :
    ¬((simulated 25).execute View.sample (SenderCache.ofCapacity 1)).Failed ∧
      ∃ w, View.sample.transfer Envelope.neutral.signer Address.sample 25 = .ok w ∧
        w.SameStanding ((simulated 25).execute View.sample (SenderCache.ofCapacity 1)).outer := by
  have hfacts :
      ((simulated 25).execute View.sample (SenderCache.ofCapacity 1)).error = none ∧
        ((simulated 25).execute View.sample (SenderCache.ofCapacity 1)).result.fault = none ∧
        (simulated 25).transaction.isCreation = false ∧
        (simulated 25).transaction.sender = Envelope.neutral.signer ∧
        (simulated 25).target = Address.sample ∧
        ((simulated 25).interpreterCall? View.sample (SenderCache.ofCapacity 1)).isSome = true ∧
        ∀ call ∈ (simulated 25).interpreterCall? View.sample (SenderCache.ofCapacity 1),
          ((simulated 25).context.interpreter call.1 call.2).2 = call.2 := by
    decide +kernel
  obtain ⟨herror, hfault, hcall, hsender, htarget, -, hcalls⟩ := hfacts
  obtain ⟨-, hstands, -⟩ := standing_of_local rfl fun program v hhanded => by
    have hkept := hcalls (program, v) hhanded
    refine ⟨Interpreter.scripted_contained _ program v, ?_⟩
    rw [hkept]
    exact .refl v
  have hworks : ¬((simulated 25).execute View.sample (SenderCache.ofCapacity 1)).Failed :=
    not_or.mpr ⟨not_not_intro herror, not_not_intro hfault⟩
  refine ⟨hworks, ?_⟩
  obtain ⟨w, htransfer, hsame⟩ := hstands hworks
  rw [cleared_of_call hcall, hsender, htarget] at htransfer
  exact ⟨w, htransfer, hsame⟩

/-- The same call where the interpreter does nothing at all. -/
def simulatedPassively (value : Balance) : Job :=
  { simulated value with
    context := { (simulated value).context with interpreter := Interpreter.passive } }

/-- The money moves all the same, so a local call does not leave balances as they are. -/
theorem local_call_moves_money :
    (simulatedPassively 25).isLocal = true ∧
      (∀ (program : Program) (v : View),
        v.SameStanding ((simulatedPassively 25).context.interpreter program v).2) ∧
      ¬View.sample.SameStanding
        ((simulatedPassively 25).execute View.sample (SenderCache.ofCapacity 1)).outer := by
  refine ⟨rfl, fun _ v => .refl v, fun hsame => ?_⟩
  have hmoved : ((simulatedPassively 25).execute View.sample
      (SenderCache.ofCapacity 1)).outer.balance Address.sample ≠
        View.sample.balance Address.sample := by
    decide +kernel
  exact hmoved (hsame Address.sample).1

end Job

end LedgerExec
