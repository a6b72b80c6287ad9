import LedgerExec.Script
import LedgerExec.Proofs.State.Reading
set_option autoImplicit false

/-!
# Interpreters that keep to their view

An interpreter is given a program and a view.  It is contained when it writes to
that view and to views of its own on top of it, but neither commits nor leaves it:
the layers below come back as they were.

Scripted interpreters are contained, whatever their scripts: a nested view is
closed before the step that opened it ends.
-/

namespace LedgerExec

/-- In one run the interpreter leaves alone the layers below its view. -/
def Interpreter.Contained (i : Interpreter) (program : Program) (v : View) : Prop :=
  (i program v).2.below = v.below

namespace View

/-- Closing a committed or forgotten view that was started on another leads back to the layers
below that one. -/
theorem below_closed {v w : View} (hbelow : w.below = v.push.below) (commits : Bool) :
    (if commits then w.commit else w.rollback).pop.below = v.below := by
  obtain ⟨top, below⟩ := w
  change below = v.top :: v.below at hbelow
  subst hbelow
  cases commits <;> rfl

end View

namespace ScriptRun

/-- A stretch of a script that has not touched the layers below its view. -/
def Keeps (r r' : ScriptRun) : Prop := r'.view.below = r.view.below

theorem Keeps.refl (r : ScriptRun) : r.Keeps r := rfl

theorem Keeps.trans {r s t : ScriptRun} (hrs : r.Keeps s) (hst : s.Keeps t) : r.Keeps t :=
  Eq.trans hst hrs

theorem keeps_stopIf (r : ScriptRun) (stops : Bool) : r.Keeps (r.stopIf stops) := by
  cases stops <;> exact .refl r

/-- A step without steps of its own writes to the view or to the result of the program. -/
theorem keeps_act (r : ScriptRun) (header : StepHeader) (action : Action) :
    r.Keeps (r.act header action) := by
  cases action with
  | spend gas cause =>
      simp only [act]
      split <;> rfl
  | trySpend gas cause =>
      simp only [act]
      split <;> rfl
  | revert stops => exact keeps_stopIf _ stops
  | fail fault stops => exact keeps_stopIf _ stops
  | transfer receiver amount =>
      simp only [act]
      split
      · rename_i view htransfer
        exact View.below_of_transfer htransfer
      · rfl
  | selfDestruct receiver =>
      simp only [act]
      split
      · rename_i view htransfer
        exact View.below_of_transfer htransfer
      · rfl
  | _ => rfl

theorem keeps_record (r : ScriptRun) (header : StepHeader) (depth place : Nat) :
    r.Keeps (r.record header depth place) := rfl

mutual
/-- One step, whatever is nested in it. -/
theorem keeps_step (r : ScriptRun) (depth place : Nat) :
    (s : ScriptStep) → r.Keeps (r.step depth place s)
  | .act header action => by
      rw [step]
      exact (r.keeps_record header depth place).trans (keeps_act _ header action)
  | .ifDestroyed header steps => by
      rw [step]
      split
      · exact (r.keeps_record header depth place).trans (keeps_steps _ depth 0 steps)
      · exact r.keeps_record header depth place
  | .nested header steps commits => by
      rw [step]
      have hinner := keeps_steps ((r.record header depth place).withView View.push) (depth + 1) 0
        steps
      exact View.below_closed hinner commits

/-- A list of steps. -/
theorem keeps_steps (r : ScriptRun) (depth place : Nat) :
    (list : List ScriptStep) → r.Keeps (r.steps depth place list)
  | [] => by
      rw [steps]
      exact .refl r
  | first :: rest => by
      rw [steps]
      have hfirst := keeps_step r depth place first
      split
      · exact hfirst
      · exact hfirst.trans (keeps_steps _ depth (place + 1) rest)
end

end ScriptRun

/-- Every scripted interpreter is contained. -/
theorem Interpreter.scripted_contained (scripts : List (Bytes × List ScriptStep))
    (program : Program) (v : View) : (Interpreter.scripted scripts).Contained program v := by
  unfold Interpreter.Contained Interpreter.scripted
  split
  · rfl
  · exact ScriptRun.keeps_steps { program, view := v } 0 0 _

end LedgerExec
