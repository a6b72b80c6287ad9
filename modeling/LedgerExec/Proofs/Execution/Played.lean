import LedgerExec.Proofs.Execution.Prepared
import LedgerExec.Proofs.State.Balances
set_option autoImplicit false

/-!
# After the second phase

The second phase plays the prepared program.  `Job.handed?` is the one call of the
interpreter that it makes, and `Job.Ending` how it ends: what was done stands, or
it is undone and the result with it, or it is undone and the result stays as the
interpreter left it.  The last happens at the two exits that charge gas after the
interpreter and fail (`Job.LooseEnd`).

`ended_complete` goes through the exits in the order of the code: the intrinsic
cost, the interpreter, the gas that is left, the deposit, the end.
-/

namespace LedgerExec

namespace Job

/-- The program and the view that the second phase hands to the interpreter, if it comes to
that. -/
def handed? (j : Job) (e : Execution) : Option (Program × View) :=
  match e.program with
  | none => none
  | some program =>
    match program.charge j.basicCost "TRANSACTION COST" with
    | .error _ => none
    | .ok program => if j.context.runsPrograms then some (program, e.inside) else none

theorem handed?_eq_some_iff {j : Job} {e : Execution} {program : Program} {v : View} :
    j.handed? e = some (program, v) ↔ j.context.runsPrograms = true ∧ v = e.inside ∧
      ∃ started, e.program = some started ∧
        started.charge j.basicCost "TRANSACTION COST" = .ok program := by
  unfold handed?
  cases hprogram : e.program with
  | none => simp
  | some started =>
      cases hcharge : started.charge j.basicCost "TRANSACTION COST" with
      | error fault => simp [hcharge]
      | ok charged =>
          cases hruns : j.context.runsPrograms with
          | false => simp [hcharge]
          | true => simp [hcharge, and_comm, eq_comm]

/-- What a failed run leaves of the view that it paid from: the account of a contract whose code
was refused stays, unless one was there. -/
def kept (j : Job) (paid : View) (refused : Bool) : View :=
  if refused && !paid.hasAccount j.newAddress then paid.create j.newAddress else paid

/-- The account of a refused contract is created only where there was none. -/
theorem sameStanding_kept (j : Job) (paid : View) (refused : Bool) :
    paid.SameStanding (j.kept paid refused) := by
  unfold kept
  split
  · rename_i hkept
    rw [Bool.and_eq_true] at hkept
    exact paid.sameStanding_create_of_missing (by simpa using hkept.2)
  · exact .refl paid

/-- What the interpreter makes of a program. -/
def outcome (j : Job) (program : Program) (v : View) : RunResult :=
  (j.context.interpreter program v).1.result

/-- A charge after the interpreter that can not be made: more gas is used than the limit, or the
limit that the program was invoked with is a smaller one. -/
def LooseEnd (j : Job) (program : Program) (used : Gas) : Prop :=
  j.transaction.gasLimit.toNat < used.toNat ∨
    program.invocation.gasLimit.toNat < j.transaction.gasLimit.toNat

/-- Whether the code that a creation returns is refused: the gas left does not pay for it, or it is
too large. -/
def Refuses (j : Job) (left : Gas) (code : Bytes) : Prop :=
  left < Gas.mul Gas.perCodeByte (Unsigned.clamp 64 code.length) ∨
    j.context.chain.limits.maxContractSize.toNat < code.length

/-- Whether there is a call of the interpreter, and it leaves a creation whose code is refused. -/
def DepositFails (j : Job) (call : Option (Program × View)) : Prop :=
  j.transaction.isCreation = true ∧ ∃ program v, call = some (program, v) ∧
    (j.outcome program v).reverted = false ∧
    ∃ left, Gas.sub j.transaction.gasLimit (j.outcome program v).gasUsed = .ok left ∧
      j.Refuses left (j.outcome program v).output

/-- How the second phase ends, when it starts from `e` and leaves `f`. -/
inductive Ending (j : Job) (paid : View) (I : View → Prop) (e f : Execution) : Prop
  /-- what the run did to its view is committed -/
  | stands (v : View) (error : f.error = none) (inside : I v) (below : v.below = paid.layers)
      (outer : f.outer = v.commit.pop)
      (gas : f.result.Quiet ∧ f.gasLeft.toNat ≤ j.transaction.gasLimit.toNat ∨
        f.gasLeft.toNat + f.result.gasUsed.toNat ≤ j.transaction.gasLimit.toNat)
  /-- what the run did is forgotten -/
  | undone (error : f.error ≠ none) (outer : f.outer = j.kept paid f.depositRefused)
      (quiet : f.result.Quiet) (gas : f.gasLeft.toNat ≤ j.transaction.gasLimit.toNat)
  /-- the view of the run is forgotten, its result is not -/
  | loose (program : Program) (v : View) (handed : j.handed? e = some (program, v))
      (cause : j.LooseEnd program (j.outcome program v).gasUsed)
      (error : f.error ≠ none) (outer : f.outer = paid) (gas : f.gasLeft = 0)
      (used : f.result.gasUsed = (j.outcome program v).gasUsed)

/-- What holds after the second phase however it ends. -/
structure Ended (j : Job) (paid : View) (I : View → Prop) (e f : Execution) : Prop where
  inner : f.inner = {}
  prepaid : f.prepaid = !j.isLocal
  refused : f.depositRefused = true ↔ j.DepositFails (j.handed? e)
  ending : j.Ending paid I e f

/-! ## The interpreter -/

/-- Where playing stands once the interpreter has returned. -/
structure Played (j : Job) (paid : View) (I : View → Prop) (e : Execution) (p : Play) : Prop where
  execution : j.Prepared paid I p.execution
  error : p.execution.error = none
  outcome : p.outcome = .ok ()
  named : j.transaction.isCreation = true → p.execution.newContract = some j.newAddress
  program : p.program.result.Quiet ∧ p.program.result.output = [] ∧ j.handed? e = none ∨
    ∃ program v, j.handed? e = some (program, v) ∧
      p.program.invocation = program.invocation ∧ p.program.result = j.outcome program v

variable {j : Job} {paid : View} {I : View → Prop} {e : Execution}

theorem interpret_played (h : j.Prepared paid I e) (herror : e.error = none)
    {program charged : Program} (hprogram : e.program = some program)
    (hcharge : program.charge j.basicCost "TRANSACTION COST" = .ok charged)
    (hinterpreter : ∀ program v, j.handed? e = some (program, v) →
      j.context.interpreter.Contained program v ∧ (I v → I (j.context.interpreter program v).2)) :
    j.Played paid I e (j.interpret e charged) := by
  have hnamed := h.named (by simp [hprogram])
  unfold interpret
  split
  · rename_i hruns
    have hhanded : j.handed? e = some (charged, e.inside) := by
      simp [handed?, hprogram, hcharge, hruns]
    obtain ⟨hcontained, hinside⟩ := hinterpreter charged e.inside hhanded
    exact
      { execution := h.within herror (f := fun _ => (j.context.interpreter charged e.inside).2)
          hcontained (hinside h.inside)
        error := herror
        outcome := rfl
        named := hnamed
        program := .inr ⟨charged, e.inside, hhanded, rfl, rfl⟩ }
  · rename_i hpassive
    have hhanded : j.handed? e = none := by
      simp [handed?, hprogram, hcharge, hpassive]
    have hresult : charged.result = RunResult.spend {} j.basicCost := by
      obtain ⟨-, rfl⟩ := Program.charge_eq_ok_iff.mp hcharge
      change program.result.spend j.basicCost = _
      rw [(h.program program hprogram).1]
    have hquiet : charged.result.Quiet := by
      rw [hresult]
      exact RunResult.quiet_empty.spend _
    exact
      { execution := h
        error := herror
        outcome := rfl
        named := hnamed
        program := .inl ⟨hquiet, by rw [hresult]; rfl, hhanded⟩ }

/-- Empty code is never refused. -/
theorem not_refuses_nil (j : Job) (left : Gas) : ¬j.Refuses left [] := by
  simp [Refuses, Unsigned.lt_iff, Gas.toNat_mul]

/-- The check of the deposit, as playing makes it. -/
theorem depositFails_iff {p : Play} (hplayed : j.Played paid I e p)
    (hgas : p.execution.gasLeft.toNat + p.program.result.gasUsed.toNat =
      j.transaction.gasLimit.toNat) :
    j.DepositFails (j.handed? e) ↔
      j.transaction.isCreation = true ∧ p.program.result.reverted = false ∧
        j.Refuses p.execution.gasLeft p.program.result.output := by
  rcases hplayed.program with ⟨-, houtput, hnone⟩ | ⟨program, v, hhanded, -, hresult⟩
  · simp [DepositFails, hnone, houtput, not_refuses_nil]
  · have hsub := Gas.sub_eq_ok_iff.mpr hgas
    rw [hresult] at hsub ⊢
    constructor
    · rintro ⟨hcreation, program', v', hhanded', hreverted, left, hleft, hrefuses⟩
      obtain ⟨rfl, rfl⟩ := Prod.mk.inj (Option.some.inj (hhanded.symm.trans hhanded'))
      obtain rfl := Except.ok.inj (hsub.symm.trans hleft)
      exact ⟨hcreation, hreverted, hrefuses⟩
    · rintro ⟨hcreation, hreverted, hrefuses⟩
      exact ⟨hcreation, program, v, hhanded, hreverted, _, hsub, hrefuses⟩

/-- A run that has used too much gas does not come to the check. -/
theorem not_depositFails {p : Play} (hplayed : j.Played paid I e p)
    (hover : j.transaction.gasLimit.toNat < p.program.result.gasUsed.toNat) :
    ¬j.DepositFails (j.handed? e) := by
  rintro ⟨-, program, v, hhanded, -, left, hleft, -⟩
  rcases hplayed.program with ⟨-, -, hnone⟩ | ⟨program', v', hhanded', -, hresult⟩
  · simp [hnone] at hhanded
  · obtain ⟨rfl, rfl⟩ := Prod.mk.inj (Option.some.inj (hhanded.symm.trans hhanded'))
    have hsum := Gas.sub_eq_ok_iff.mp hleft
    rw [hresult] at hover
    omega

/-! ## The deposit -/

/-- What the deposit of a creation does. -/
inductive Deposited (j : Job) (p : Play) : Play → Prop
  | skipped (idle : p.execution.newContract = none ∨ p.program.result.reverted = true) :
      Deposited j p p
  | refused (address : Address) (created : p.execution.newContract = some address)
      (standing : p.program.result.reverted = false)
      (refuses : j.Refuses p.execution.gasLeft p.program.result.output) (fault : RunFault) :
      Deposited j p
        { p with
          execution := { p.execution with depositRefused := true }
          program := (p.program.fail fault).setOutput [] }
  | unpaid (covered : ¬j.Refuses p.execution.gasLeft p.program.result.output) (cost left : Gas)
      (afforded : left.toNat + cost.toNat = p.execution.gasLeft.toNat) (fault : RunFault)
      (charge : p.program.charge cost "CONTRACT DATA COST" = .error fault) :
      Deposited j p
        { p with execution := { p.execution with gasLeft := left }, outcome := .error fault }
  | stored (covered : ¬j.Refuses p.execution.gasLeft p.program.result.output)
      (address : Address) (cost left : Gas)
      (afforded : left.toNat + cost.toNat = p.execution.gasLeft.toNat) (program : Program)
      (charge : p.program.charge cost "CONTRACT DATA COST" = .ok program)
      (created : p.execution.newContract = some address) :
      Deposited j p
        { execution := { p.execution with gasLeft := left }.within
            (·.saveCode address program.result.output)
          program }

theorem deposited_depositNew (j : Job) (p : Play) : j.Deposited p (j.depositNew p) := by
  unfold depositNew
  split
  · rename_i address hcreated
    split
    · rename_i hreverted
      exact .skipped (.inr hreverted)
    · rename_i hstanding
      have hstanding : p.program.result.reverted = false := by simpa using hstanding
      simp only [deposit]
      split
      · rename_i hshort
        exact .refused address hcreated hstanding (.inl hshort) _
      · rename_i hcovered
        split
        · rename_i hlarge
          exact .refused address hcreated hstanding (.inr hlarge) _
        · rename_i hsmall
          have hpaid := not_or.mpr ⟨hcovered, hsmall⟩
          split
          · rename_i fault hsub
            exact absurd (Gas.sub_eq_error_iff.mp hsub).1 hcovered
          · rename_i left hsub
            have hafforded := Gas.sub_eq_ok_iff.mp hsub
            split
            · rename_i fault hcharge
              exact .unpaid hpaid _ left hafforded fault hcharge
            · rename_i program hcharge
              exact .stored hpaid address _ left hafforded program hcharge hcreated
  · rename_i hnone
    exact .skipped (.inl hnone)

/-! ## The end -/

/-- What the end of playing does. -/
inductive Concluded (p : Play) : Play → Prop
  | clean (fault : p.program.result.fault = none) : Concluded p p
  | failed (fault : RunFault) :
      Concluded p
        { execution := p.execution.rollback
          program := { p.program with result := p.program.result.discard }
          outcome := .error fault }
  | reverted :
      Concluded p
        { execution := { p.execution.rollback with error := some .reverted }
          program := { p.program with result := p.program.result.discard } }

theorem concluded_conclude (p : Play) : Concluded p (conclude p) := by
  simp only [conclude]
  split
  · split
    · exact .failed _
    · exact .reverted
  · rename_i hclean
    have hfault : p.program.result.fault = none := by
      rw [Bool.or_eq_true, not_or] at hclean
      simpa using hclean.1
    exact .clean hfault

/-- A program that has failed is forgotten. -/
theorem conclude_of_fault {p : Play} (fault : RunFault)
    (hfault : p.program.result.fault = some fault) :
    conclude p =
      { execution := p.execution.rollback
        program := { p.program with result := p.program.result.discard }
        outcome := .error fault } := by
  simp [conclude, hfault]

/-- A refused contract is created in the outer view itself, as nothing else is pending. -/
theorem keepRefused_eq {e : Execution} (hclean : e.inner = {})
    (hnew : e.depositRefused = true → e.newContract = some j.newAddress) :
    keepRefused e = { e with outer := j.kept e.outer e.depositRefused } := by
  cases hrefused : e.depositRefused with
  | false =>
      have hkept : j.kept e.outer false = e.outer := rfl
      simp only [keepRefused, hrefused, hkept]
      rw [← hrefused]
  | true =>
      have hpush : e.inside = e.outer.push := e.inside_of_clean hclean
      have hexists : e.inside.hasAccount j.newAddress = e.outer.hasAccount j.newAddress := by
        simp [hpush, View.hasAccount]
      simp only [keepRefused, hrefused, hnew hrefused, hexists]
      split
      · rename_i hthere
        have hkept : j.kept e.outer true = e.outer := by simp [kept, hthere]
        rw [e.commit_of_clean hclean, hkept, ← hrefused, ← hnew hrefused]
      · rename_i hmissing
        have hkept : j.kept e.outer true = e.outer.create j.newAddress := by
          simp [kept, hmissing]
        rw [e.commit_within_create hclean, hkept, ← hrefused, ← hnew hrefused]

/-- Keeping a refused contract touches the views alone. -/
theorem exists_keepRefused (e : Execution) :
    ∃ outer inner, keepRefused e = { e with outer, inner } := by
  unfold keepRefused
  split
  · split
    · exact ⟨_, _, rfl⟩
    · exact ⟨_, _, rfl⟩
  · exact ⟨e.outer, e.inner, rfl⟩

/-- However playing ends, the program is put back, and its result with it but for a fault. -/
theorem exists_close (p : Play) :
    ∃ outer inner gasLeft error result,
      close p =
        { p.execution with outer, inner, gasLeft, error, result, program := some p.program } ∧
      (result = p.program.result ∨ ∃ fault, result = p.program.result.fail fault) := by
  cases houtcome : p.outcome with
  | ok =>
      refine ⟨p.execution.inside.commit.pop, {}, p.execution.gasLeft, p.execution.error,
        p.program.result, ?_, .inl rfl⟩
      simp only [close, houtcome]
      rfl
  | error fault =>
      obtain ⟨outer, inner, hkept⟩ := exists_keepRefused
        (abort { p.execution with result := p.program.result, program := some p.program } fault)
      refine ⟨outer, inner, 0, some (.failed fault),
        if p.program.result.fault.isSome then p.program.result else p.program.result.fail fault,
        ?_, ?_⟩
      · simp only [close, houtcome, hkept]
        rfl
      · split
        · exact .inl rfl
        · exact .inr ⟨fault, rfl⟩

/-- A run that a fault has stopped leaves its result and what is kept of the view. -/
theorem close_of_error {p : Play} {fault : RunFault} (houtcome : p.outcome = .error fault)
    (hnew : p.execution.depositRefused = true → p.execution.newContract = some j.newAddress) :
    ∃ result, (result = p.program.result ∨ result = p.program.result.fail fault) ∧
      close p =
        { p.execution with
          inner := {}
          outer := j.kept p.execution.outer p.execution.depositRefused
          gasLeft := 0
          error := some (.failed fault)
          result
          program := some p.program } := by
  let e := { p.execution with result := p.program.result, program := some p.program }
  have hclosed : close p = keepRefused (abort e fault) := by
    simp only [close, houtcome]
    rfl
  have hkept := keepRefused_eq (j := j) (e := abort e fault) rfl hnew
  rw [hclosed, hkept]
  refine ⟨_, ?_, rfl⟩
  cases hfault : p.program.result.fault.isSome with
  | false => exact .inr (if_neg (by simp [e, hfault]))
  | true => exact .inl (if_pos hfault)

/-! ## The endings -/

/-- A run that a fault has stopped, with a result that asks for nothing. -/
theorem ended_undone {p : Play} {fault : RunFault} (houtcome : p.outcome = .error fault)
    (houter : p.execution.outer = paid) (hprepaid : p.execution.prepaid = !j.isLocal)
    (hrefused : p.execution.depositRefused = true ↔ j.DepositFails (j.handed? e))
    (hnew : p.execution.depositRefused = true → p.execution.newContract = some j.newAddress)
    (hquiet : p.program.result.Quiet) : j.Ended paid I e (close p) := by
  obtain ⟨result, hresult, hclose⟩ := close_of_error houtcome hnew
  rw [hclose]
  have hresultQuiet : result.Quiet := by
    rcases hresult with rfl | rfl
    · exact hquiet
    · exact hquiet.fail fault
  exact
    { inner := rfl
      prepaid := hprepaid
      refused := hrefused
      ending := .undone (by simp) (by rw [houter]) hresultQuiet (by simp) }

/-- A run that a fault has stopped before the deposit was checked. -/
theorem ended_stopped {p : Play} {fault : RunFault} (houtcome : p.outcome = .error fault)
    (hprepared : j.Prepared paid I p.execution) (hcheck : ¬j.DepositFails (j.handed? e))
    (hquiet : p.program.result.Quiet) : j.Ended paid I e (close p) :=
  ended_undone houtcome hprepared.outer hprepared.prepaid
    (by simp [hprepared.depositRefused, hcheck]) (by simp [hprepared.depositRefused]) hquiet

/-- A run that has failed to pay gas after the interpreter. -/
theorem ended_loose {p : Play} {fault : RunFault} (houtcome : p.outcome = .error fault)
    (hprepared : j.Prepared paid I p.execution) {program : Program} {v : View}
    (hhanded : j.handed? e = some (program, v))
    (hprogram : p.program.result = j.outcome program v)
    (hcause : j.LooseEnd program (j.outcome program v).gasUsed)
    (hcheck : ¬j.DepositFails (j.handed? e)) : j.Ended paid I e (close p) := by
  have hrefused := hprepared.depositRefused
  obtain ⟨result, hresult, hclose⟩ :=
    close_of_error (j := j) houtcome fun h => absurd h (by simp [hrefused])
  have hused : result.gasUsed = (j.outcome program v).gasUsed := by
    rw [← hprogram]
    rcases hresult with rfl | rfl <;> rfl
  have houter : j.kept p.execution.outer p.execution.depositRefused = paid := by
    rw [hrefused, hprepared.outer]
    rfl
  rw [hclose]
  exact
    { inner := rfl
      prepaid := hprepared.prepaid
      refused := by simp [hrefused, hcheck]
      ending := .loose program v hhanded hcause (by simp) houter rfl hused }

/-- What is committed is what the run has seen. -/
theorem ended_stands {p : Play} (houtcome : p.outcome = .ok ())
    (hprepared : j.Prepared paid I p.execution) (herror : p.execution.error = none)
    (hcheck : ¬j.DepositFails (j.handed? e))
    (hgas : p.execution.gasLeft.toNat + p.program.result.gasUsed.toNat ≤
      j.transaction.gasLimit.toNat) : j.Ended paid I e (close p) := by
  have hbelow : p.execution.inside.below = paid.layers := by
    rw [Execution.below_inside, hprepared.outer]
  have hrefused := hprepared.depositRefused
  simp only [close, houtcome]
  exact
    { inner := rfl
      prepaid := hprepared.prepaid
      refused := by simp [Execution.commit_eq, hrefused, hcheck]
      ending := .stands p.execution.inside herror hprepared.inside hbelow rfl (.inr hgas) }

theorem ended_reverted {p : Play} (houtcome : p.outcome = .ok ())
    (hclean : p.execution.inner = {}) (herror : p.execution.error ≠ none)
    (houter : p.execution.outer = paid) (hprepaid : p.execution.prepaid = !j.isLocal)
    (hrefused : p.execution.depositRefused = false) (hcheck : ¬j.DepositFails (j.handed? e))
    (hquiet : p.program.result.Quiet)
    (hgas : p.execution.gasLeft.toNat ≤ j.transaction.gasLimit.toNat) :
    j.Ended paid I e (close p) := by
  have hcommit := Execution.commit_of_clean
    { p.execution with result := p.program.result, program := some p.program } hclean
  simp only [close, houtcome]
  rw [hcommit]
  have hkept : p.execution.outer = j.kept paid p.execution.depositRefused := by
    rw [houter, hrefused]
    rfl
  exact
    { inner := hclean
      prepaid := hprepaid
      refused := by simp [hrefused, hcheck]
      ending := .undone herror hkept hquiet hgas }

/-- The end of a program whose code is deposited, or that deposits none. -/
theorem ended_conclude {p : Play} (houtcome : p.outcome = .ok ())
    (hprepared : j.Prepared paid I p.execution) (herror : p.execution.error = none)
    (hcheck : ¬j.DepositFails (j.handed? e))
    (hgas : p.execution.gasLeft.toNat + p.program.result.gasUsed.toNat ≤
      j.transaction.gasLimit.toNat) : j.Ended paid I e (close (conclude p)) := by
  have hconcluded := concluded_conclude p
  generalize conclude p = concluded at hconcluded ⊢
  cases hconcluded with
  | clean _ => exact ended_stands houtcome hprepared herror hcheck hgas
  | failed fault =>
      exact ended_undone rfl hprepared.outer hprepared.prepaid
        (by simp [hprepared.depositRefused, hcheck])
        (by simp [hprepared.depositRefused]) (RunResult.quiet_discard _)
  | reverted =>
      exact ended_reverted rfl rfl (by simp) hprepared.outer hprepared.prepaid
        hprepared.depositRefused hcheck (RunResult.quiet_discard _) hprepared.gasLeft

/-- The deposit and the end, once the gas that is left is known. -/
theorem ended_wrapUp {p : Play} (hplayed : j.Played paid I e p)
    (hsave : j.transaction.isCreation = true →
      ∀ v code, I v → I (v.saveCode j.newAddress code))
    (hgas : p.execution.gasLeft.toNat + p.program.result.gasUsed.toNat =
      j.transaction.gasLimit.toNat) : j.Ended paid I e (close (j.wrapUp p)) := by
  have hexecution := hplayed.execution
  have hcheck := depositFails_iff hplayed hgas
  have hdeposited := deposited_depositNew j p
  simp only [wrapUp]
  generalize j.depositNew p = deposited at hdeposited ⊢
  cases hdeposited with
  | skipped hidle =>
      have hunchecked : ¬j.DepositFails (j.handed? e) := by
        rw [hcheck]
        rintro ⟨hcreation, hstanding, -⟩
        rcases hidle with hnone | hreverted
        · simp [hplayed.named hcreation] at hnone
        · simp [hstanding] at hreverted
      simp only [hplayed.outcome]
      exact ended_conclude hplayed.outcome hexecution hplayed.error hunchecked (Nat.le_of_eq hgas)
  | refused address hcreated hstanding hrefuses fault =>
      obtain ⟨hcreation, rfl⟩ := hexecution.newContract address hcreated
      have hfails := hcheck.mpr ⟨hcreation, hstanding, hrefuses⟩
      simp only [hplayed.outcome]
      rw [conclude_of_fault fault rfl]
      exact ended_undone rfl hexecution.outer hexecution.prepaid
        (by simp [hfails]) (fun _ => hcreated) (RunResult.quiet_discard _)
  | unpaid hcovered cost left hafforded fault hcharge =>
      have hleft : j.Prepared paid I { p.execution with gasLeft := left } :=
        hexecution.reckoned hplayed.error (by omega) hexecution.quiet
      have hpasses : ¬j.DepositFails (j.handed? e) := fun hfails => hcovered (hcheck.mp hfails).2.2
      rcases hplayed.program with ⟨hquiet, -, -⟩ | ⟨program, v, hhanded, hinvocation, hresult⟩
      · exact ended_stopped rfl hleft hpasses hquiet
      · have hshort : p.program.gasLeft.toNat < cost.toNat :=
          Nat.lt_of_not_le (Program.charge_eq_error_iff.mp hcharge).1
        have hlimit : p.program.gasLeft.toNat =
            program.invocation.gasLimit.toNat - p.program.result.gasUsed.toNat := by
          rw [Program.gasLeft, Unsigned.toNat_subSat, hinvocation]
        exact ended_loose rfl hleft hhanded hresult (.inr (by omega)) hpasses
  | stored hcovered address cost left hafforded program hcharge hcreated =>
      obtain ⟨hcreation, rfl⟩ := hexecution.newContract address hcreated
      have hleft : j.Prepared paid I { p.execution with gasLeft := left } :=
        hexecution.reckoned hplayed.error (by omega) hexecution.quiet
      have hpasses : ¬j.DepositFails (j.handed? e) := fun hfails => hcovered (hcheck.mp hfails).2.2
      have hsaved := hleft.within hplayed.error
        (f := (·.saveCode j.newAddress program.result.output)) rfl
        (hsave hcreation _ _ hleft.inside)
      have hused : program.result.gasUsed.toNat ≤
          p.program.result.gasUsed.toNat + cost.toNat := by
        obtain ⟨-, rfl⟩ := Program.charge_eq_ok_iff.mp hcharge
        change (Gas.add p.program.result.gasUsed cost).toNat ≤ _
        rw [Gas.toNat_add]
        omega
      refine ended_conclude rfl hsaved hplayed.error hpasses ?_
      change left.toNat + program.result.gasUsed.toNat ≤ _
      omega

/-- What follows the interpreter. -/
theorem ended_afterInterpreter {p : Play} (hplayed : j.Played paid I e p)
    (hsave : j.transaction.isCreation = true →
      ∀ v code, I v → I (v.saveCode j.newAddress code)) :
    j.Ended paid I e (close (j.afterInterpreter p)) := by
  have hexecution := hplayed.execution
  unfold afterInterpreter
  split
  · rename_i fault hsub
    have hover := (Gas.sub_eq_error_iff.mp hsub).1
    have hunchecked := not_depositFails hplayed hover
    rcases hplayed.program with ⟨hquiet, -, -⟩ | ⟨program, v, hhanded, -, hresult⟩
    · exact ended_stopped rfl hexecution hunchecked hquiet
    · rw [hresult] at hover
      exact ended_loose rfl hexecution hhanded hresult (.inl hover) hunchecked
  · rename_i left hsub
    have hsum := Gas.sub_eq_ok_iff.mp hsub
    have hleft : j.Prepared paid I { p.execution with gasLeft := left } :=
      hexecution.reckoned hplayed.error (by omega) hexecution.quiet
    exact ended_wrapUp { hplayed with execution := hleft } hsave hsum

/-- The second phase, whatever the program does.  Besides the interpreter it is only the code of a
new contract that the phase writes to the view of the run. -/
theorem ended_complete (hprepared : j.Prepared paid I e)
    (hsave : j.transaction.isCreation = true →
      ∀ v code, I v → I (v.saveCode j.newAddress code))
    (hinterpreter : ∀ program v, j.handed? e = some (program, v) →
      j.context.interpreter.Contained program v ∧ (I v → I (j.context.interpreter program v).2)) :
    j.Ended paid I e (j.complete e) := by
  have hrefused := hprepared.depositRefused
  unfold complete
  cases hprogram : e.program with
  | none =>
      have hunchecked : ¬j.DepositFails (j.handed? e) := by simp [DepositFails, handed?, hprogram]
      cases herror : e.error with
      | none =>
          have hbelow : e.inside.below = paid.layers := by
            rw [Execution.below_inside, hprepared.outer]
          exact
            { inner := rfl
              prepaid := hprepared.prepaid
              refused := by simp [Execution.commit_eq, hrefused, hunchecked]
              ending := .stands e.inside herror hprepared.inside hbelow rfl
                (.inl ⟨hprepared.quiet, hprepared.gasLeft⟩) }
      | some error =>
          obtain ⟨hclean, -, -⟩ := hprepared.stopped (by simp [herror])
          have hkept : e.outer = j.kept paid e.depositRefused := by
            rw [hprepared.outer, hrefused]
            rfl
          simp only [e.commit_of_clean hclean]
          exact
            { inner := hclean
              prepaid := hprepared.prepaid
              refused := by simp [hrefused, hunchecked]
              ending := .undone (by simp [herror]) hkept hprepared.quiet hprepared.gasLeft }
  | some program =>
      have herror := hprepared.error_eq_none hprogram
      simp only [play]
      cases hcharge : program.charge j.basicCost "TRANSACTION COST" with
      | error fault =>
          have hunchecked : ¬j.DepositFails (j.handed? e) := by
            simp [DepositFails, handed?, hprogram, hcharge]
          have hquiet : program.result.Quiet := by
            rw [(hprepared.program program hprogram).1]
            exact RunResult.quiet_empty
          exact ended_stopped rfl hprepared hunchecked hquiet
      | ok charged =>
          have hplayed := interpret_played hprepared herror hprogram hcharge hinterpreter
          exact ended_afterInterpreter hplayed hsave

end Job

end LedgerExec
