import Mathlib.Algebra.Ring.Nat
import LedgerExec.Proofs.Execution.Settled
set_option autoImplicit false

/-!
# The gas meter of a program

A program asks for gas in two ways: it is charged an amount, or all that is left.  The
meter counts what it has granted up to the ceiling of all gas, but the limit that it counts
against is any word.

Whatever the limit, what is counted and what is left make up the limit after every sequence
of calls (`Program.Metered.afterCalls`), and a charge is refused exactly if it asks for more
than is left.  The count is the gas granted as long as the ceiling is not met, which a limit
within the ceiling makes sure of.  Beyond the ceiling there is always some gas left, so the
meter stops no program (`Program.metering_exact_iff`).
-/

namespace LedgerExec

/-- A call of the gas meter. -/
inductive MeterCall where
  | spend (amount : Gas) (cause : String)
  | spendAll
  deriving DecidableEq, Repr

namespace Program

/-! ## Calling the meter -/

/-- What the meter answers: the gas that it grants and the program charged for it, or a fault. -/
def meter (p : Program) : MeterCall → Except RunFault (Gas × Program)
  | .spend amount cause => (p.charge amount cause).map (amount, ·)
  | .spendAll => .ok (p.gasLeft, p.chargeAll)

/-- The program after a call; a refused one leaves it as it is. -/
def afterCall (p : Program) (call : MeterCall) : Program :=
  match p.meter call with
  | .ok (_, charged) => charged
  | .error _ => p

/-- The gas that a call is granted. -/
def granted (p : Program) (call : MeterCall) : Nat :=
  match p.meter call with
  | .ok (gas, _) => gas.toNat
  | .error _ => 0

/-- The program after calls in order. -/
def afterCalls (p : Program) (calls : List MeterCall) : Program := calls.foldl afterCall p

/-- The exact sum of the gas that calls are granted in order. -/
def grantedBy : Program → List MeterCall → Nat
  | _, [] => 0
  | p, call :: rest => p.granted call + (p.afterCall call).grantedBy rest

/-- Every positive charge is refused. -/
def Exhausted (p : Program) : Prop :=
  ∀ amount cause, 0 < amount → ∃ fault, p.charge amount cause = .error fault

variable {p : Program} {call : MeterCall} {limit : Gas}

theorem toNat_gasLeft (p : Program) :
    p.gasLeft.toNat = p.invocation.gasLimit.toNat - p.result.gasUsed.toNat :=
  Unsigned.toNat_subSat _ _

/-- A call is refused or granted no more than is left.  What is granted is counted, up to the
ceiling, and nothing else changes. -/
theorem meter_cases (p : Program) (call : MeterCall) :
    (∃ fault, p.meter call = .error fault) ∧ p.granted call = 0 ∧ p.afterCall call = p ∨
      ∃ gas : Gas, gas ≤ p.gasLeft ∧ p.granted call = gas.toNat ∧
        p.afterCall call = { p with result := p.result.spend gas } := by
  cases call with
  | spend amount cause =>
      cases hcharge : p.charge amount cause with
      | error fault =>
          have hmeter : p.meter (.spend amount cause) = .error fault := by
            rw [meter, hcharge]
            rfl
          exact .inl ⟨⟨fault, hmeter⟩, by rw [granted, hmeter], by rw [afterCall, hmeter]⟩
      | ok charged =>
          obtain ⟨hleft, rfl⟩ := charge_eq_ok_iff.mp hcharge
          have hmeter : p.meter (.spend amount cause) =
              .ok (amount, { p with result := p.result.spend amount }) := by
            rw [meter, hcharge]
            rfl
          exact .inr ⟨amount, hleft, by rw [granted, hmeter], by rw [afterCall, hmeter]⟩
  | spendAll => exact .inr ⟨p.gasLeft, Nat.le_refl _, rfl, rfl⟩

theorem refused_iff {amount : Gas} {cause : String} :
    (∃ fault, p.charge amount cause = .error fault) ↔ p.gasLeft < amount := by
  constructor
  · rintro ⟨fault, hrefused⟩
    exact Nat.lt_of_not_le (charge_eq_error_iff.mp hrefused).1
  · intro hless
    exact ⟨_, charge_eq_error_iff.mpr ⟨Nat.not_le_of_lt hless, rfl⟩⟩

/-- A refused charge changes nothing. -/
theorem afterCall_of_refused {amount : Gas} {cause : String} (hless : p.gasLeft < amount) :
    p.afterCall (.spend amount cause) = p := by
  obtain ⟨fault, hrefused⟩ := refused_iff.mpr hless
  rw [afterCall, meter, hrefused]
  rfl

/-- A program is exhausted exactly if nothing is left. -/
theorem exhausted_iff : p.Exhausted ↔ p.gasLeft = 0 := by
  constructor
  · intro hexhausted
    have hnone : ¬0 < p.gasLeft := fun hpositive => by
      exact absurd (refused_iff.mp (hexhausted p.gasLeft "all that is left" hpositive))
        (Nat.lt_irrefl _)
    rw [Unsigned.lt_iff, Unsigned.toNat_zero] at hnone
    rw [← Unsigned.toNat_inj, Unsigned.toNat_zero]
    omega
  · intro hnone amount cause hpositive
    rw [refused_iff, hnone]
    exact hpositive

/-! ## What every call keeps -/

/-- The meter counts against a limit and has counted no more than that, nor more than the
ceiling. -/
structure Metered (p : Program) (limit : Gas) : Prop where
  invoked : p.invocation.gasLimit = limit
  within_limit : p.result.gasUsed ≤ limit
  within_ceiling : p.result.gasUsed ≤ Gas.ceiling

theorem metered_start (options : TraceOptions) (code : Bytes) (invocation : Invocation)
    (destroyed : Std.ExtTreeSet Address) :
    (start options code invocation destroyed).Metered invocation.gasLimit where
  invoked := rfl
  within_limit := Nat.zero_le _
  within_ceiling := Nat.zero_le _

/-- What is counted and what is left make up the limit. -/
theorem Metered.sum (h : p.Metered limit) :
    p.result.gasUsed.toNat + p.gasLeft.toNat = limit.toNat := by
  have hwithin := Unsigned.le_iff.mp h.within_limit
  rw [toNat_gasLeft, h.invoked]
  omega

/-- A call adds what it grants to the count, up to the ceiling. -/
theorem Metered.gasUsed_afterCall (h : p.Metered limit) (call : MeterCall) :
    (p.afterCall call).result.gasUsed.toNat =
      min (p.result.gasUsed.toNat + p.granted call) Gas.ceiling.toNat := by
  have hceiling := Unsigned.le_iff.mp h.within_ceiling
  rcases p.meter_cases call with ⟨-, hgranted, hafter⟩ | ⟨gas, -, hgranted, hafter⟩
  · rw [hafter, hgranted]
    omega
  · rw [hafter, hgranted]
    exact Gas.toNat_add _ _

theorem granted_le_gasLeft (p : Program) (call : MeterCall) :
    p.granted call ≤ p.gasLeft.toNat := by
  rcases p.meter_cases call with ⟨-, hgranted, -⟩ | ⟨gas, hleft, hgranted, -⟩
  · omega
  · rw [hgranted]
    exact hleft

theorem Metered.afterCall (h : p.Metered limit) (call : MeterCall) :
    (p.afterCall call).Metered limit where
  invoked := by
    rcases p.meter_cases call with ⟨-, -, hafter⟩ | ⟨gas, -, -, hafter⟩
    · rw [hafter]
      exact h.invoked
    · rw [hafter]
      exact h.invoked
  within_limit := by
    have hused := h.gasUsed_afterCall call
    have hgranted := p.granted_le_gasLeft call
    have hsum := h.sum
    rw [Unsigned.le_iff]
    omega
  within_ceiling := by
    have hused := h.gasUsed_afterCall call
    rw [Unsigned.le_iff]
    omega

theorem Metered.afterCalls (h : p.Metered limit) (calls : List MeterCall) :
    (p.afterCalls calls).Metered limit := by
  induction calls generalizing p with
  | nil => exact h
  | cons call rest ih => exact ih (h.afterCall call)

/-! ## Limits within the ceiling -/

/-- The sum of the gas granted is within what is left, if the limit is within the ceiling: then the
ceiling cuts nothing off the count. -/
theorem Metered.grantedBy_le (h : p.Metered limit) (hlimit : limit ≤ Gas.ceiling)
    (calls : List MeterCall) : p.grantedBy calls ≤ p.gasLeft.toNat := by
  have hceiling := Unsigned.le_iff.mp hlimit
  induction calls generalizing p with
  | nil => exact Nat.zero_le _
  | cons call rest ih =>
      have hrest := ih (h.afterCall call)
      have hused := h.gasUsed_afterCall call
      have hgranted := p.granted_le_gasLeft call
      have hsum := h.sum
      have hsum' := (h.afterCall call).sum
      -- the count stays below the ceiling, so what is left shrinks by what is granted
      rw [grantedBy]
      omega

/-- The count does not shrink. -/
theorem Metered.le_gasUsed_afterCalls (h : p.Metered limit) (calls : List MeterCall) :
    p.result.gasUsed.toNat ≤ (p.afterCalls calls).result.gasUsed.toNat := by
  induction calls generalizing p with
  | nil => exact Nat.le_refl _
  | cons call rest ih =>
      have hused := h.gasUsed_afterCall call
      have hceiling := Unsigned.le_iff.mp h.within_ceiling
      exact Nat.le_trans (by omega) (ih (h.afterCall call))

/-- Once all gas has been asked for, the count is the limit or the ceiling, whichever is met first,
and stays there. -/
theorem Metered.gasUsed_of_spendAll (h : p.Metered limit) (calls later : List MeterCall) :
    (p.afterCalls (calls ++ .spendAll :: later)).result.gasUsed.toNat =
      min limit.toNat Gas.ceiling.toNat := by
  have hbefore := h.afterCalls calls
  have hspent := hbefore.afterCall .spendAll
  have hused := hbefore.gasUsed_afterCall .spendAll
  have hgranted : (p.afterCalls calls).granted .spendAll = (p.afterCalls calls).gasLeft.toNat := rfl
  have hsum := hbefore.sum
  have hafter := hspent.afterCalls later
  have hgrows := hspent.le_gasUsed_afterCalls later
  have hlimit := Unsigned.le_iff.mp hafter.within_limit
  have hceiling := Unsigned.le_iff.mp hafter.within_ceiling
  have hsplit : p.afterCalls (calls ++ .spendAll :: later) =
      ((p.afterCalls calls).afterCall .spendAll).afterCalls later := by
    simp only [Program.afterCalls, List.foldl_append, List.foldl_cons]
  rw [hsplit]
  omega

/-- The meter of a new program, for any limit.  After any calls, the count and what is left make up
the limit, and a charge is refused exactly if it asks for more than is left, which changes
nothing.  That the sum of the gas granted stays within the limit, and that nothing more is granted
once all gas has been asked for, holds exactly of the limits within the ceiling. -/
theorem metering_exact_iff (options : TraceOptions) (code : Bytes) (invocation : Invocation)
    (destroyed : Std.ExtTreeSet Address) :
    let p := start options code invocation destroyed
    (∀ calls,
      (p.afterCalls calls).result.gasUsed.toNat + (p.afterCalls calls).gasLeft.toNat =
          invocation.gasLimit.toNat ∧
        ∀ amount cause,
          ((∃ fault, (p.afterCalls calls).charge amount cause = .error fault) ↔
              (p.afterCalls calls).gasLeft < amount) ∧
            ((p.afterCalls calls).gasLeft < amount →
              (p.afterCalls calls).afterCall (.spend amount cause) = p.afterCalls calls)) ∧
      ((∀ calls, p.grantedBy calls ≤ invocation.gasLimit.toNat) ↔
        invocation.gasLimit ≤ Gas.ceiling) ∧
      ∀ calls later, (p.afterCalls (calls ++ .spendAll :: later)).Exhausted ↔
        invocation.gasLimit ≤ Gas.ceiling := by
  intro p
  have hmetered : p.Metered invocation.gasLimit := metered_start options code invocation destroyed
  refine ⟨fun calls => ⟨(hmetered.afterCalls calls).sum, fun amount cause => ?_⟩, ?_,
    fun calls later => ?_⟩
  · exact ⟨refused_iff, afterCall_of_refused⟩
  · constructor
    · intro hgranted
      -- all that is left is asked for twice
      have hsum := hgranted [.spendAll, .spendAll]
      have hfirst := hmetered.gasUsed_of_spendAll [] []
      have hleft := (hmetered.afterCalls [.spendAll]).sum
      have hstart := hmetered.sum
      have htwice : p.grantedBy [.spendAll, .spendAll] =
          p.gasLeft.toNat + (p.afterCalls [.spendAll]).gasLeft.toNat := rfl
      have hnone : p.result.gasUsed.toNat = 0 := rfl
      rw [List.nil_append] at hfirst
      rw [Unsigned.le_iff]
      omega
    · intro hlimit calls
      have hwithin := hmetered.grantedBy_le hlimit calls
      have hsum := hmetered.sum
      omega
  · have hused := hmetered.gasUsed_of_spendAll calls later
    have hsum := (hmetered.afterCalls (calls ++ .spendAll :: later)).sum
    rw [exhausted_iff, ← Unsigned.toNat_inj, Unsigned.toNat_zero, Unsigned.le_iff]
    omega

end Program

/-- A local call with the greatest limit there is.  The contract asks for all gas and then for half
of the words of gas again. -/
def Job.insatiableCall : Job :=
  { sample { gasLimit := Unsigned.greatest 64, receiver := Address.sample.toBytes }
      [([1],
        [ .act { name := "ALL" } .spendAll,
          .act { name := "MORE" } (.spend (Unsigned.truncate 64 (2 ^ 63)) "more") ])] with
    isLocal := true }

/-- The contract is granted both, more than the limit, and the run stands. -/
theorem Job.insatiableCall_granted :
    insatiableCall.transaction.payload.gasLimit.toNat = 2 ^ 64 - 1 ∧
      (insatiableCall.interpreterCall? View.sample (SenderCache.ofCapacity 1)).map
          (fun call => call.1.grantedBy
            [.spendAll, .spend (Unsigned.truncate 64 (2 ^ 63)) "more"]) =
        some (2 ^ 64 - 1 - 21000 + 2 ^ 63) ∧
      (insatiableCall.execute View.sample (SenderCache.ofCapacity 1)).error = none := by
  decide +kernel

end LedgerExec
