import LedgerExec.Proofs.Execution.Played
set_option autoImplicit false

/-!
# What a run does to its view

Before any program is played a run writes little: the new account of a creation, the
account of the built-in contract that it calls, and the value of the transaction from
its sender to its target.  `Job.Entered` lists what has been written before the value
moves, and `Job.Performed` how the first phase ends: it was stopped and nothing is left
of it, a built-in contract has refused and the value stays, or the value has moved.
The four things that a transaction can ask for all end with the same transfer
(`performed_moveValue`), so `performed_perform` only has to say how each of them comes to
it.

`Job.Completed` adds the second phase: what was done is forgotten, or it is committed,
with whatever the program has made of it.
-/

namespace LedgerExec

namespace Job

variable {j : Job} {paid : View} {e : Execution}

/-- The account that the value goes to: the receiver, or the contract that is created. -/
def target (j : Job) : Address := j.transaction.receiver?.getD j.newAddress

/-- What the run may have written before the value moves. -/
inductive Entered (j : Job) (paid : View) : View → Prop
  | untouched (call : j.transaction.isCreation = false) : Entered j paid paid.push
  | created (creates : j.transaction.isCreation = true) :
      Entered j paid (paid.push.create j.newAddress)
  /-- there is init code to run -/
  | contract (creates : j.transaction.isCreation = true) :
      Entered j paid ((paid.push.create j.newAddress).setUpContract j.newAddress)
  | adopted (address : Address) (receiver : j.transaction.receiver? = some address)
      (builtIn : (j.context.registry.contract? j.context.active address).isSome = true) :
      Entered j paid (adopt address paid.push)

/-- How the first phase ends, once it is paid. -/
inductive Performed (j : Job) (paid : View) (e : Execution) : Prop
  /-- there is an error, and nothing has been done -/
  | stopped (error : e.error ≠ none) (program : e.program = none) (inside : e.inside = paid.push)
  /-- a built-in contract has refused: this is no error, but the value stays -/
  | refused (call : j.transaction.isCreation = false) (error : e.error = none)
      (fault : e.result.fault ≠ none) (program : e.program = none)
      (entered : j.Entered paid e.inside)
  | moved (v : View) (error : e.error = none) (fault : e.result.fault = none)
      (entered : j.Entered paid v)
      (transfer : v.transfer j.transaction.sender j.target j.transaction.payload.value =
        .ok e.inside)

/-- The value moves if it is there. -/
theorem moveValue_of_transfer {target : Address} {v : View} (hclean : e.result.fault = none)
    (htransfer : e.inside.transfer j.transaction.sender target j.transaction.payload.value =
      .ok v) : j.moveValue e target = { e with inner := v.top } := by
  have hbelow : v.below = e.outer.layers := View.below_of_transfer htransfer
  simp only [moveValue, hclean, htransfer, Option.isSome_none, Bool.false_eq_true, if_false]
  exact e.setInside_eq hbelow

/-- The one transfer of the phase. -/
theorem performed_moveValue (houter : e.outer = paid) (herror : e.error = none)
    (hrefused : e.result.fault ≠ none → j.transaction.isCreation = false ∧ e.program = none)
    (hentered : j.Entered paid e.inside) {target : Address}
    (htarget : j.target = target) : j.Performed paid (j.moveValue e target) := by
  subst htarget
  cases hfault : e.result.fault with
  | some fault =>
      have hfaulty : e.result.fault ≠ none := by simp [hfault]
      obtain ⟨hcall, hprogram⟩ := hrefused hfaulty
      have hkept : j.moveValue e j.target = e := by simp [moveValue, hfault]
      rw [hkept]
      exact .refused hcall herror hfaulty hprogram hentered
  | none =>
      cases htransfer :
          e.inside.transfer j.transaction.sender j.target j.transaction.payload.value with
      | ok v =>
          have hbelow : v.below = e.outer.layers := View.below_of_transfer htransfer
          rw [moveValue_of_transfer hfault htransfer]
          refine .moved e.inside herror hfault hentered ?_
          rw [htransfer, Execution.inside, View.top_on_below hbelow]
      | error fault =>
          have hfailed : j.moveValue e j.target = failRun e (.transfer fault) := by
            simp [moveValue, hfault, htransfer]
          rw [hfailed]
          exact .stopped (by simp [failRun]) rfl (by rw [← houter]; rfl)

/-! ## The target -/

theorem target_of_receiver {address : Address} (h : j.transaction.receiver? = some address) :
    j.target = address := by
  rw [target, h, Option.getD_some]

theorem target_of_creation (h : j.transaction.isCreation = true) : j.target = j.newAddress := by
  rw [target, receiver?_eq_none_iff.mpr h, Option.getD_none]

/-! ## The phase -/

/-- An answer of a built-in contract touches the view by adopting the contract, if at all. -/
theorem exists_answer (j : Job) (e : Execution) (address : Address) (contract : BuiltIn)
    (used : Gas) :
    ∃ inner gasLeft rentLeft result subtraces,
      j.answer e address contract used = { e with inner, gasLeft, rentLeft, result, subtraces } ∧
        (inner = e.inner ∨ inner = (adopt address e.inside).top) := by
  obtain ⟨gasLeft, result, htaken⟩ : ∃ gasLeft result,
      j.takeGas { e with rentLeft := j.transaction.rentGasLimit } used =
        { e with rentLeft := j.transaction.rentGasLimit, gasLeft, result } := by
    unfold takeGas
    split
    · exact ⟨_, _, rfl⟩
    · exact ⟨_, _, rfl⟩
  simp only [answer, htaken, consult]
  split
  · rw [Execution.within_eq _ (below_adopt address _)]
    exact ⟨_, gasLeft, j.transaction.rentGasLimit, _, _, rfl, .inr rfl⟩
  · exact ⟨e.inner, gasLeft, j.transaction.rentGasLimit, _, e.subtraces, rfl, .inl rfl⟩

theorem performed_callBuiltIn (houter : e.outer = paid) (hinner : e.inner = {})
    (herror : e.error = none) (hprogram : e.program = none) {address : Address}
    {contract : BuiltIn} (hreceiver : j.transaction.receiver? = some address)
    (hcontract : j.context.registry.contract? j.context.active address = some contract) :
    j.Performed paid (j.callBuiltIn e address contract) := by
  have hpush : e.inside = paid.push := by rw [e.inside_of_clean hinner, houter]
  simp only [callBuiltIn]
  split
  · exact .stopped (by simp) hprogram hpush
  · obtain ⟨inner, gasLeft, rentLeft, result, subtraces, hanswer, hwritten⟩ :=
      j.exists_answer e address contract
        (Gas.add (j.required contract) j.basicCost)
    rw [hanswer]
    have hentered : j.Entered paid ⟨inner, e.inside.below⟩ := by
      rcases hwritten with rfl | rfl
      · change j.Entered paid e.inside
        rw [hpush]
        exact .untouched (isCreation_of_receiver hreceiver)
      · rw [View.top_on_below (below_adopt address e.inside), hpush]
        exact .adopted address hreceiver (by rw [hcontract]; rfl)
    refine performed_moveValue ?_ ?_ ?_ hentered (target_of_receiver hreceiver)
    · exact houter
    · exact herror
    · exact fun _ => ⟨isCreation_of_receiver hreceiver, hprogram⟩

theorem performed_create (houter : e.outer = paid) (hinner : e.inner = {})
    (herror : e.error = none) (hclean : e.result.fault = none)
    (hcreates : j.transaction.isCreation = true) :
    j.Performed paid (j.create e j.newAddress) := by
  have hpush : e.inside = paid.push := by rw [e.inside_of_clean hinner, houter]
  have htarget := target_of_creation hcreates
  simp only [create]
  split
  · refine performed_moveValue ?_ ?_ ?_ ?_ htarget
    · exact houter
    · exact herror
    · exact fun hfault => absurd hclean hfault
    · change j.Entered paid (e.inside.create j.newAddress)
      rw [hpush]
      exact .created hcreates
  · refine performed_moveValue ?_ ?_ ?_ ?_ htarget
    · exact houter
    · exact herror
    · exact fun hfault => absurd hclean hfault
    · change j.Entered paid ((e.inside.create j.newAddress).setUpContract j.newAddress)
      rw [hpush]
      exact .contract hcreates

/-- The first phase once it is paid. -/
theorem performed_perform (j : Job) (paid : View) (senders : SenderCache) (prepaid : Bool) :
    j.Performed paid (j.perform { outer := paid, senders, prepaid }) := by
  have hdescribes := j.describes_dispatch paid
  -- a call without a built-in contract: nothing is written before the value moves
  have hcall {e : Execution} {address : Address} (houter : e.outer = paid)
      (hinner : e.inner = {}) (herror : e.error = none) (hclean : e.result.fault = none)
      (hreceiver : j.transaction.receiver? = some address) :
      j.Performed paid (j.moveValue e address) := by
    have hentered : j.Entered paid paid.push := .untouched (isCreation_of_receiver hreceiver)
    refine performed_moveValue houter herror (fun hfault => absurd hclean hfault) ?_
      (target_of_receiver hreceiver)
    rw [e.inside_of_clean hinner, houter]
    exact hentered
  unfold perform
  cases hdispatch : j.dispatch paid with
  | creation address =>
      rw [hdispatch] at hdescribes
      obtain ⟨hcreates, rfl⟩ := hdescribes
      exact performed_create rfl rfl rfl rfl hcreates
  | builtIn address contract =>
      rw [hdispatch] at hdescribes
      obtain ⟨hreceiver, hcontract⟩ := hdescribes
      apply performed_callBuiltIn _ _ _ _ hreceiver hcontract <;> rfl
  | program address code =>
      rw [hdispatch] at hdescribes
      apply hcall _ _ _ _ hdescribes <;> rfl
  | plain address =>
      rw [hdispatch] at hdescribes
      apply hcall _ _ _ _ hdescribes <;> rfl

/-! ## Programs that end without an error -/

/-- If a play is closed without an error, then without a fault as well. -/
def Play.Faultless (p : Play) : Prop := (close p).error = none → (close p).result.fault = none

theorem faultless_of_error {p : Play} {fault : RunFault} (houtcome : p.outcome = .error fault) :
    p.Faultless := by
  intro herror
  obtain ⟨outer, inner, hkept⟩ := exists_keepRefused
    (abort { p.execution with result := p.program.result, program := some p.program } fault)
  simp only [close, houtcome, hkept] at herror
  exact absurd herror (Option.some_ne_none _)

theorem faultless_conclude {p : Play} (houtcome : p.outcome = .ok ()) :
    (conclude p).Faultless := by
  have hconcluded := concluded_conclude p
  generalize conclude p = concluded at hconcluded
  cases hconcluded with
  | clean hfault =>
      intro _
      simp only [close, houtcome]
      exact hfault
  | failed fault => exact faultless_of_error rfl
  | reverted => exact fun herror => absurd herror (Option.some_ne_none _)

theorem faultless_afterInterpreter (j : Job) (p : Play) : (j.afterInterpreter p).Faultless := by
  unfold afterInterpreter
  split
  · exact faultless_of_error rfl
  · simp only [wrapUp]
    split
    · rename_i fault houtcome
      exact faultless_of_error houtcome
    · rename_i houtcome
      exact faultless_conclude houtcome

/-- A program that is played to its end without an error leaves no fault. -/
theorem fault_complete {program : Program} (hprogram : e.program = some program)
    (herror : (j.complete e).error = none) : (j.complete e).result.fault = none := by
  have hfaultless : (j.play e program).Faultless := by
    unfold play
    split
    · exact faultless_of_error rfl
    · exact j.faultless_afterInterpreter _
  have hcomplete : j.complete e = close (j.play e program) := by simp only [complete, hprogram]
  rw [hcomplete] at herror ⊢
  exact hfaultless herror

/-! ## Both phases -/

/-- What is left of a run when it is over: `e` is the execution before the second phase, `f` after
it, and `R` relates the view that the value has moved in to what the program makes of it. -/
inductive Completed (j : Job) (paid : View) (R : View → View → Prop) (e f : Execution) : Prop
  /-- nothing is left, but for the account of a contract whose code was refused -/
  | forgotten (error : f.error ≠ none)
      (outer : f.outer = paid ∨ j.DepositFails (j.handed? e) ∧ f.outer = j.kept paid true)
  /-- a built-in contract has refused: this is no error, but the value stays -/
  | refused (call : j.transaction.isCreation = false) (error : f.error = none)
      (fault : f.result.fault ≠ none) (v : View) (entered : j.Entered paid v)
      (outer : f.outer = v.commit.pop)
  | moved (error : f.error = none) (fault : f.result.fault = none) (v w u : View)
      (entered : j.Entered paid v)
      (transfer : v.transfer j.transaction.sender j.target j.transaction.payload.value = .ok w)
      (played : R w u) (outer : f.outer = u.commit.pop)

theorem completed_complete {R : View → View → Prop} (hperformed : j.Performed paid e)
    (hprepared : j.Prepared paid (fun _ => True) e) (hrefl : ∀ v, R v v)
    (hsave : j.transaction.isCreation = true →
      ∀ w u code, R w u → R w (u.saveCode j.newAddress code))
    (hinterpreter : ∀ program v, j.handed? e = some (program, v) →
      j.context.interpreter.Contained program v ∧
        ∀ w, R w v → R w (j.context.interpreter program v).2) :
    j.Completed paid R e (j.complete e) := by
  have hcommitted (hprogram : e.program = none) : j.complete e = e.commit := by
    simp only [complete, hprogram]
  cases hperformed with
  | stopped herror hprogram =>
      rw [hcommitted hprogram, e.commit_of_clean (hprepared.stopped herror).1]
      exact .forgotten herror (.inl hprepared.outer)
  | refused hcall herror hfault hprogram hentered =>
      rw [hcommitted hprogram, Execution.commit_eq]
      exact .refused hcall herror hfault e.inside hentered rfl
  | moved v herror hfault hentered htransfer =>
      cases hprogram : e.program with
      | none =>
          rw [hcommitted hprogram, Execution.commit_eq]
          exact .moved herror hfault v e.inside e.inside hentered htransfer (hrefl _) rfl
      | some program =>
          have hstart : j.Prepared paid (R e.inside) e :=
            { hprepared with inside := hrefl e.inside }
          have hended := ended_complete hstart
            (fun hcreates u code hu => hsave hcreates _ u code hu)
            fun program u hcall =>
              ⟨(hinterpreter program u hcall).1, (hinterpreter program u hcall).2 _⟩
          cases hended.ending with
          | stands u herror' hinside _ houter =>
              exact .moved herror' (fault_complete hprogram herror') v e.inside u hentered
                htransfer hinside houter
          | undone herror' houter =>
              refine .forgotten herror' ?_
              cases hrefused : (j.complete e).depositRefused with
              | false =>
                  rw [hrefused] at houter
                  exact .inl houter
              | true =>
                  rw [hrefused] at houter
                  exact .inr ⟨hended.refused.mp hrefused, houter⟩
          | loose _ _ _ _ herror' houter => exact .forgotten herror' (.inl houter)

end Job

end LedgerExec
