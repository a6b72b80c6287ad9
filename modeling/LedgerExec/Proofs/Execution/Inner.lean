import LedgerExec.Execution.Run
import LedgerExec.Proofs.State.Reading
set_option autoImplicit false

/-!
# The layer of the run

An execution keeps the layer of the run apart from the view of the transaction.
Whatever an operation does to the view inside, only `commit` reaches the outer
view: the others change `inner` alone, and on a clean layer a commit changes
nothing.
-/

namespace LedgerExec

namespace Layer

/-- Committing a layer without writes. -/
@[simp] theorem absorb_empty (isRoot : Bool) (l : Layer) : l.absorb isRoot {} = l := rfl

/-- The layer of a run that has only created an account. -/
theorem created_empty (address : Address) :
    (({} : Layer).delete false address).setAccount false address (some Account.fresh) =
      { accounts := (∅ : Std.ExtTreeMap Address (Option Account)).insert address
          (some Account.fresh)
        storage := ∅
        wiped := (∅ : Std.ExtTreeSet Address).insert address } := by
  apply Layer.ext
  · apply Std.ExtTreeMap.ext_getElem?
    intro a
    simp only [delete, wipe, setAccount, Bool.false_and, Bool.false_eq_true, if_false,
      Std.ExtTreeMap.getElem?_insert]
    split <;> rfl
  · rfl
  · rfl

/-- Committing the creation of an account is creating it in the layer below. -/
theorem absorb_created (isRoot : Bool) (l : Layer) (address : Address) :
    l.absorb isRoot
        ((({} : Layer).delete false address).setAccount false address (some Account.fresh)) =
      (l.delete isRoot address).setAccount isRoot address (some Account.fresh) := by
  rw [created_empty]
  change (l.wipe isRoot address).setAccount isRoot address (some Account.fresh) = _
  apply Layer.ext
  · apply Std.ExtTreeMap.ext_getElem?
    intro a
    cases isRoot <;>
      simp [delete, wipe, setAccount, Std.ExtTreeMap.getElem?_insert,
        Std.ExtTreeMap.getElem?_erase] <;>
      split <;> rfl
  · cases isRoot <;> rfl
  · cases isRoot <;> rfl

end Layer

namespace Execution

variable (e : Execution)

@[simp] theorem below_inside : e.inside.below = e.outer.layers := rfl

/-- A run without writes sees the view of the transaction. -/
theorem inside_of_clean (hclean : e.inner = {}) : e.inside = e.outer.push := by
  rw [inside, hclean]
  rfl

/-- A view of the run is put back by its top layer alone, as long as the layers below it are still
those of the outer view. -/
theorem setInside_eq {v : View} (hbelow : v.below = e.outer.layers) :
    e.setInside v = { e with inner := v.top } := by
  obtain ⟨top, below⟩ := v
  subst hbelow
  rfl

theorem within_eq {f : View → View} (hbelow : (f e.inside).below = e.outer.layers) :
    e.within f = { e with inner := (f e.inside).top } :=
  e.setInside_eq hbelow

@[simp] theorem rollback_eq : e.rollback = { e with inner := {} } := rfl

theorem commit_eq : e.commit = { e with inner := {}, outer := e.inside.commit.pop } := rfl

/-- Nothing is committed when nothing is pending. -/
theorem commit_of_clean (hclean : e.inner = {}) : e.commit = e := by
  obtain ⟨outer, inner⟩ := e
  subst hclean
  simp [commit, within, setInside, inside, View.commit, View.pop, View.layers]

/-- Creating an account in a run without writes and committing it is creating it outside. -/
theorem commit_within_create (hclean : e.inner = {}) (address : Address) :
    (e.within (·.create address)).commit = { e with outer := e.outer.create address } := by
  obtain ⟨⟨top, below⟩, inner⟩ := e
  subst hclean
  have habsorbed := Layer.absorb_created below.isEmpty top address
  simp only [commit, within, setInside, inside, View.commit, View.pop, View.layers, View.create,
    View.delete, View.put, View.isRoot, List.isEmpty_cons, habsorbed]

end Execution

end LedgerExec
