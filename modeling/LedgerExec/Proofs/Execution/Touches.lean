import LedgerExec.Proofs.Calls.Succeeding
import LedgerExec.Proofs.Execution.Failure
import LedgerExec.Proofs.State.Snapshot
set_option autoImplicit false

/-!
# Writing below the layer of the run

An execution has two views of one state, and both write the account of the sender.  What is
written to the view of the transaction while the layer of the run holds entries of its own
would be hidden by them, and lost when they are committed.

`Job.touches` lists all that the three phases do to the two views, in their order, and
`Execution.Path` follows such a list: a touch fits if the layer of the run is clean when
something is written below it, and if an interpreter keeps to its view.  Each phase is a
path (`path_run`, `path_complete`, `path_finalize`), through every exit, so the whole is
one.

What a path does to the layers can be said without them (`Path.shown`).  Of two whole
copies of the state each write below the run reaches both, and a commit replaces the one by
the other: then nothing that is written below can be lost.
-/

namespace LedgerExec

/-- What is done to the views of an execution. -/
inductive Touch where
  /-- a write to the view of the transaction itself -/
  | outer (w : Write)
  /-- a write to the view of the run -/
  | inner (w : Write)
  /-- an interpreter gives the view of the run back as another -/
  | interpreted (v : View)
  | commit
  | rollback

/-- What is written below the run. -/
def Touch.below? : Touch → Option Write
  | .outer w => some w
  | _ => none

namespace Execution

variable {e f g : Execution} {ts us : List Touch}

/-- One touch. -/
def touch (e : Execution) : Touch → Execution
  | .outer w => { e with outer := e.outer.write w }
  | .inner w => e.within (·.write w)
  | .interpreted v => e.setInside v
  | .commit => e.commit
  | .rollback => e.rollback

/-- Touches one after the other. -/
def touched (e : Execution) (ts : List Touch) : Execution := ts.foldl touch e

theorem inside_setInside {v : View} (hbelow : v.below = e.outer.layers) :
    (e.setInside v).inside = v := by
  rw [e.setInside_eq hbelow]
  exact View.top_on_below hbelow

/-- Two executions that have come to the same views. -/
structure SameViews (e f : Execution) : Prop where
  outer : e.outer = f.outer
  inner : e.inner = f.inner

namespace SameViews

theorem refl (e : Execution) : e.SameViews e := ⟨rfl, rfl⟩

theorem trans (hef : e.SameViews f) (hfg : f.SameViews g) : e.SameViews g :=
  ⟨hef.outer.trans hfg.outer, hef.inner.trans hfg.inner⟩

theorem inside (h : e.SameViews f) : e.inside = f.inside := by
  rw [Execution.inside, h.outer, h.inner, Execution.inside]

theorem within (h : e.SameViews f) (op : View → View) :
    (e.within op).SameViews (f.within op) := by
  rw [Execution.within, h.inside]
  exact ⟨rfl, rfl⟩

theorem touch (h : e.SameViews f) (t : Touch) : (e.touch t).SameViews (f.touch t) := by
  cases t with
  | outer w => exact ⟨congrArg (·.write w) h.outer, h.inner⟩
  | inner w => exact h.within (·.write w)
  | interpreted v => exact ⟨rfl, rfl⟩
  | commit => exact h.within View.commit
  | rollback => exact h.within View.rollback

end SameViews

end Execution

/-! ## Paths -/

/-- Nothing is written below a layer that holds entries, and the layers below the run stay what
they are when an interpreter returns. -/
def Touch.Fits (e : Execution) : Touch → Prop
  | .outer _ => e.inner = {}
  | .interpreted v => v.below = e.outer.layers
  | _ => True

theorem Touch.Fits.congr {e f : Execution} (h : e.SameViews f) {t : Touch} (hfits : t.Fits f) :
    t.Fits e := by
  cases t with
  | outer w => exact h.inner.trans hfits
  | interpreted v => exact hfits.trans (by rw [h.outer])
  | inner w => trivial
  | commit => trivial
  | rollback => trivial

namespace Execution

variable {e f g : Execution} {ts us : List Touch}

/-- The touches lead from one execution to the views of the other, and each of them fits the
execution that it finds. -/
inductive Path : Execution → List Touch → Execution → Prop
  | nil {e f : Execution} (same : e.SameViews f) : Path e [] f
  | cons {e f : Execution} {t : Touch} {ts : List Touch} (fits : t.Fits e)
      (rest : Path (e.touch t) ts f) : Path e (t :: ts) f

namespace Path

theorem refl (e : Execution) : e.Path [] e := .nil (.refl e)

theorem single {t : Touch} (hfits : t.Fits e) : e.Path [t] (e.touch t) := .cons hfits (.refl _)

theorem congr_left (h : f.Path ts g) (hsame : e.SameViews f) : e.Path ts g := by
  induction h generalizing e with
  | nil hrest => exact .nil (hsame.trans hrest)
  | cons hfits _ ih => exact .cons (hfits.congr hsame) (ih (hsame.touch _))

theorem congr_right (h : e.Path ts f) (hsame : f.SameViews g) : e.Path ts g := by
  induction h with
  | nil hrest => exact .nil (hrest.trans hsame)
  | cons hfits _ ih => exact .cons hfits (ih hsame)

theorem trans (hef : e.Path ts f) (hfg : f.Path us g) : e.Path (ts ++ us) g := by
  induction hef with
  | nil hsame => exact hfg.congr_left hsame
  | cons hfits _ ih => exact .cons hfits (ih hfg)

theorem touched (h : e.Path ts f) : (e.touched ts).SameViews f := by
  induction h with
  | nil hsame => exact hsame
  | cons _ _ ih => exact ih

/-- A path can be left at every point. -/
theorem split (h : e.Path (ts ++ us) f) :
    e.Path ts (e.touched ts) ∧ (e.touched ts).Path us f := by
  induction ts generalizing e with
  | nil => exact ⟨.refl e, h⟩
  | cons t ts ih =>
      cases h with
      | cons hfits hrest =>
          obtain ⟨hbefore, hafter⟩ := ih hrest
          exact ⟨.cons hfits hbefore, hafter⟩

/-- The layer of the run is clean whenever something is written below it. -/
theorem clean (h : e.Path ts f) {before after : List Touch} {w : Write}
    (hsplit : ts = before ++ .outer w :: after) : (e.touched before).inner = {} := by
  subst hsplit
  cases h.split.2 with
  | cons hfits _ => exact hfits

/-- Writes to the view of the run. -/
theorem inners (e : Execution) (ws : List Write) :
    e.Path (ws.map .inner) (e.within fun v => ws.foldl View.write v) := by
  induction ws generalizing e with
  | nil => exact .refl e
  | cons w ws ih =>
      have hrest := ih (e.touch (.inner w))
      have hinside : (e.touch (.inner w)).inside = e.inside.write w :=
        inside_setInside (e.inside.below_write w)
      refine .cons trivial (hrest.congr_right ?_)
      rw [Execution.within, hinside]
      exact ⟨rfl, rfl⟩

/-- Writes below the run, all of them while its layer is clean. -/
theorem outers (hclean : e.inner = {}) (ws : List Write) :
    e.Path (ws.map .outer) { e with outer := ws.foldl View.write e.outer } := by
  induction ws generalizing e with
  | nil => exact .refl e
  | cons w ws ih => exact .cons hclean (ih (e := e.touch (.outer w)) hclean)

end Path

end Execution

/-! ## Two copies of the state -/

/-- All that the transaction has written, and all that the run sees. -/
@[ext]
structure SnapshotPair where
  outer : Snapshot
  inside : Snapshot

/-- What is done to an execution, done to two whole copies of the state: what is written to the
first is written to the second as well. -/
def SnapshotPair.touch (s : SnapshotPair) : Touch → SnapshotPair
  | .outer w => ⟨s.outer.write w, s.inside.write w⟩
  | .inner w => ⟨s.outer, s.inside.write w⟩
  | .interpreted v => ⟨s.outer, v.shown⟩
  | .commit => ⟨s.inside, s.inside⟩
  | .rollback => ⟨s.outer, s.outer⟩

/-- Touches one after the other. -/
def SnapshotPair.touched (s : SnapshotPair) (ts : List Touch) : SnapshotPair := ts.foldl touch s

namespace Execution

variable {e f : Execution} {ts : List Touch}

/-- What the two views show. -/
def shown (e : Execution) : SnapshotPair := ⟨e.outer.shown, e.inside.shown⟩

/-- A touch that fits shows as it does on copies. -/
theorem shown_touch {t : Touch} (hfits : t.Fits e) : (e.touch t).shown = e.shown.touch t := by
  cases t with
  | outer w =>
      -- nothing in between hides the write from the run
      have hbefore : e.inside.shown = e.outer.shown := by
        rw [e.inside_of_clean hfits, View.shown_push]
      have hafter : (e.touch (.outer w)).inside.shown = (e.outer.write w).shown := by
        rw [inside_of_clean (e.touch (.outer w)) hfits, View.shown_push]
        rfl
      apply SnapshotPair.ext
      · exact e.outer.shown_write w
      · change (e.touch (.outer w)).inside.shown = e.inside.shown.write w
        rw [hafter, hbefore, View.shown_write]
  | inner w =>
      have hbelow : (e.inside.write w).below = e.outer.layers := e.inside.below_write w
      apply SnapshotPair.ext
      · change (e.setInside (e.inside.write w)).outer.shown = e.outer.shown
        rw [e.setInside_eq hbelow]
      · change (e.setInside (e.inside.write w)).inside.shown = e.inside.shown.write w
        rw [inside_setInside hbelow, View.shown_write]
  | interpreted v =>
      apply SnapshotPair.ext
      · change (e.setInside v).outer.shown = e.outer.shown
        rw [e.setInside_eq hfits]
      · change (e.setInside v).inside.shown = v.shown
        rw [inside_setInside hfits]
  | commit =>
      have houter : e.commit.outer.shown = e.inside.shown :=
        View.shown_eq_of_reads e.inside.account?_pop_commit e.inside.word_pop_commit
      have hinside : e.commit.inside.shown = e.commit.outer.shown := by
        rw [e.commit.inside_of_clean rfl, View.shown_push]
      apply SnapshotPair.ext
      · exact houter
      · exact hinside.trans houter
  | rollback =>
      apply SnapshotPair.ext
      · rfl
      · change e.rollback.inside.shown = e.outer.shown
        rw [e.rollback.inside_of_clean rfl, View.shown_push]
        rfl

/-- At every point of a path the two views show what the copies have come to. -/
theorem Path.shown (h : e.Path ts f) : (e.touched ts).shown = e.shown.touched ts := by
  induction h with
  | nil => rfl
  | @cons e f t ts hfits _ ih =>
      change ((e.touch t).touched ts).shown = (e.shown.touch t).touched ts
      rw [ih, shown_touch hfits]

end Execution

namespace Job

variable {j : Job} {outer : View} {senders : SenderCache} {e : Execution} {p : Play}

/-! ## Before the value moves -/

/-- What is written below the run in advance. -/
def prepayWrites (j : Job) : List Write :=
  [.raiseNonce j.transaction.sender, .debit j.transaction.sender j.prepayment]

theorem path_prepay (hclean : e.inner = {}) :
    e.Path (j.prepayWrites.map .outer) (j.prepay e) := by
  refine (Execution.Path.outers hclean j.prepayWrites).congr_right ?_
  simp only [prepay, prepayWrites, List.foldl_cons, List.foldl_nil, View.write]
  cases (e.outer.raiseNonce j.transaction.sender).debit j.transaction.sender j.prepayment with
  | ok paid => exact ⟨rfl, rfl⟩
  | error fault => exact ⟨rfl, rfl⟩

/-- What adopting a built-in contract writes. -/
def adoptWrites (address : Address) (v : View) : List Write :=
  if !v.hasAccount address then [.create address, .setUpContract address]
  else if !v.hasContract address then [.setUpContract address]
  else []

theorem foldl_adoptWrites (address : Address) (v : View) :
    (adoptWrites address v).foldl View.write v = adopt address v := by
  unfold adoptWrites adopt
  split
  · rfl
  · split <;> rfl

/-- What is written to the view of the run before the value moves. -/
def entryWrites (j : Job) (e : Execution) : Dispatch → List Write
  | .creation address =>
    .create address ::
      if j.transaction.payload.data.isEmpty then [] else [.setUpContract address]
  | .builtIn address contract =>
    match j.answerOf contract with
    | .ok _ => adoptWrites address e.inside
    | .error _ => []
  | .program _ _ => []
  | .plain _ => []

/-- Gas is taken without a look at the views. -/
theorem sameViews_takeGas (j : Job) (e : Execution) (used : Gas) :
    e.SameViews (j.takeGas e used) := by
  unfold takeGas
  split <;> exact ⟨rfl, rfl⟩

theorem path_answer (e : Execution) (address : Address) (contract : BuiltIn) (used : Gas) :
    e.Path ((j.entryWrites e (.builtIn address contract)).map .inner)
      (j.answer e address contract used) := by
  have hstart : e.SameViews (j.takeGas { e with rentLeft := j.transaction.rentGasLimit } used) :=
    .trans (f := { e with rentLeft := j.transaction.rentGasLimit }) ⟨rfl, rfl⟩
      (j.sameViews_takeGas _ used)
  refine (Execution.Path.inners e _).congr_right ?_
  cases hanswer : j.answerOf contract with
  | error fault =>
      simp only [answer, entryWrites, consult_eq, hanswer]
      exact ⟨hstart.outer, hstart.inner⟩
  | ok output =>
      have hadopted := hstart.within (adopt address)
      have hwritten : (e.within fun v => (adoptWrites address e.inside).foldl View.write v) =
          e.within (adopt address) := by
        rw [Execution.within, foldl_adoptWrites, Execution.within]
      simp only [answer, entryWrites, consult_eq, hanswer]
      rw [hwritten]
      exact ⟨hadopted.outer, hadopted.inner⟩

theorem path_staged (e : Execution) (d : Dispatch) :
    e.Path ((j.entryWrites e d).map .inner) (j.staged e d) := by
  cases d with
  | creation address =>
      refine (Execution.Path.inners e _).congr_right ?_
      cases hdata : j.transaction.payload.data.isEmpty with
      | true =>
          simp only [staged, entryWrites, hdata, if_true]
          exact ⟨rfl, rfl⟩
      | false =>
          simp only [staged, entryWrites, hdata, Bool.false_eq_true, if_false]
          exact ⟨rfl, rfl⟩
  | builtIn address contract => exact path_answer e address contract _
  | program address code => exact .nil ⟨rfl, rfl⟩
  | plain address => exact .nil ⟨rfl, rfl⟩

/-! ## The first phase -/

/-- What moving the value comes to. -/
def moveTouches (j : Job) (e : Execution) (target : Address) : List Touch :=
  if e.result.fault.isSome then []
  else
    match e.inside.transfer j.transaction.sender target j.transaction.payload.value with
    | .ok _ => [.inner (.transfer j.transaction.sender target j.transaction.payload.value)]
    | .error _ => [.rollback]

theorem path_moveValue (e : Execution) (target : Address) :
    e.Path (j.moveTouches e target) (j.moveValue e target) := by
  unfold moveTouches moveValue
  split
  · exact .refl e
  · cases htransfer :
        e.inside.transfer j.transaction.sender target j.transaction.payload.value with
    | ok v =>
        have hwritten : e.inside.write
            (.transfer j.transaction.sender target j.transaction.payload.value) = v := by
          simp only [View.write, htransfer, Except.toOption, Option.getD_some]
        refine .cons trivial (.nil ?_)
        rw [Execution.touch, Execution.within, hwritten]
        exact .refl _
    | error fault => exact .cons trivial (.nil ⟨rfl, rfl⟩)

/-- Whether a built-in contract is called on chain without the gas for it. -/
def stops (j : Job) : Dispatch → Bool
  | .builtIn _ contract =>
    !j.isLocal && !j.context.gasRules.hasEnough j.transaction.gasLimit (j.required contract)
      (Gas.add (j.required contract) j.basicCost)
  | _ => false

/-- The account that is asked for. -/
def Dispatch.address : Dispatch → Address
  | .creation address => address
  | .builtIn address _ => address
  | .program address _ => address
  | .plain address => address

/-- Once it is paid the first phase is one transfer, unless a built-in contract stops it. -/
theorem perform_cases (j : Job) (e : Execution) :
    (j.stops (j.dispatch e.outer) = true ∧ ∃ block address required used left,
      j.perform e =
        { e with
          error := some (.builtInOutOfGas block address required used left)
          gasLeft := 0
          rentLeft := threeQuarters j.transaction.rentGasLimit }) ∨
    (j.stops (j.dispatch e.outer) = false ∧
      j.perform e = j.moveValue (j.staged e (j.dispatch e.outer)) (j.dispatch e.outer).address) := by
  cases hdispatch : j.dispatch e.outer with
  | creation address =>
      simp only [perform, hdispatch]
      exact .inr ⟨rfl, rfl⟩
  | builtIn address contract =>
      simp only [perform, hdispatch, callBuiltIn, stops]
      split
      · rename_i hstopped
        exact .inl ⟨hstopped, _, _, _, _, _, rfl⟩
      · rename_i hcovered
        exact .inr ⟨Bool.eq_false_iff.mpr hcovered, rfl⟩
  | program address code =>
      simp only [perform, hdispatch]
      exact .inr ⟨rfl, rfl⟩
  | plain address =>
      simp only [perform, hdispatch]
      exact .inr ⟨rfl, rfl⟩

/-- What is done once the price is paid. -/
def performTouches (j : Job) (e : Execution) : List Touch :=
  let d := j.dispatch e.outer
  if j.stops d then [] else (j.entryWrites e d).map .inner ++ j.moveTouches (j.staged e d) d.address

theorem path_perform (e : Execution) : e.Path (j.performTouches e) (j.perform e) := by
  unfold performTouches
  rcases j.perform_cases e with ⟨hstops, _, _, _, _, _, hperform⟩ | ⟨hcovered, hperform⟩
  · rw [hperform, if_pos hstops]
    exact .nil ⟨rfl, rfl⟩
  · rw [hperform, if_neg (by simp [hcovered])]
    exact (path_staged e _).trans (path_moveValue _ _)

/-- What the first phase does. -/
def runTouches (j : Job) (e : Execution) : List Touch :=
  if j.isLocal then j.performTouches e
  else
    let paid := j.prepay e
    j.prepayWrites.map .outer ++ if paid.prepaid then j.performTouches paid else []

theorem path_run (hclean : e.inner = {}) : e.Path (j.runTouches e) (j.run e) := by
  unfold runTouches run
  split
  · exact path_perform e
  · refine (path_prepay hclean).trans ?_
    cases hpaid : (j.prepay e).prepaid with
    | true =>
        simp only [hpaid, if_true]
        exact path_perform _
    | false =>
        simp only [hpaid, Bool.false_eq_true, if_false]
        exact .refl _

/-! ## The second phase -/

/-- What the interpreter does, if it is asked. -/
def interpretTouches (j : Job) (e : Execution) (program : Program) : List Touch :=
  if j.context.runsPrograms then [.interpreted (j.context.interpreter program e.inside).2] else []

theorem path_interpret {program : Program}
    (hcontained : j.context.runsPrograms = true →
      j.context.interpreter.Contained program e.inside) :
    e.Path (j.interpretTouches e program) (j.interpret e program).execution := by
  unfold interpretTouches interpret
  split
  · rename_i hruns
    exact .single (hcontained hruns)
  · exact .refl e

/-- What depositing the code of a creation does. -/
def depositTouches (j : Job) (p : Play) : List Touch :=
  match p.execution.newContract with
  | none => []
  | some address =>
    if p.program.result.reverted then []
    else if (j.refusal? p.execution.gasLeft p.program).isSome then []
    else if codeCost p.program.result.output ≤ p.program.gasLeft then
      [.inner (.saveCode address p.program.result.output)]
    else []

theorem path_depositNew (p : Play) :
    p.execution.Path (j.depositTouches p) (j.depositNew p).execution := by
  unfold depositTouches depositNew
  cases p.execution.newContract with
  | none => exact .refl _
  | some address =>
      simp only
      split
      · exact .refl _
      · cases hrefusal : j.refusal? p.execution.gasLeft p.program with
        | some refusal =>
            rw [deposit_of_refusal hrefusal]
            exact .nil ⟨rfl, rfl⟩
        | none =>
            simp only [Option.isSome_none, Bool.false_eq_true, if_false]
            split
            · rename_i hpaid
              rw [deposit_of_paid hrefusal hpaid]
              exact .cons trivial (.nil ⟨rfl, rfl⟩)
            · rename_i hshort
              rw [deposit_of_unpaid hrefusal hshort]
              exact .nil ⟨rfl, rfl⟩

/-- What the end of playing does. -/
def concludeTouches (p : Play) : List Touch :=
  if p.program.result.fault.isSome || p.program.result.reverted then [.rollback] else []

theorem path_conclude (p : Play) : p.execution.Path (concludeTouches p) (conclude p).execution := by
  simp only [concludeTouches, conclude]
  split
  · split <;> exact .cons trivial (.nil ⟨rfl, rfl⟩)
  · exact .refl _

/-- What follows once the gas that is left is known. -/
def wrapUpTouches (j : Job) (p : Play) : List Touch :=
  j.depositTouches p ++
    match (j.depositNew p).outcome with
    | .error _ => []
    | .ok () => concludeTouches (j.depositNew p)

theorem path_wrapUp (p : Play) : p.execution.Path (j.wrapUpTouches p) (j.wrapUp p).execution := by
  refine (path_depositNew p).trans ?_
  cases houtcome : (j.depositNew p).outcome with
  | error fault =>
      simp only [wrapUp, houtcome]
      exact .refl _
  | ok =>
      simp only [wrapUp, houtcome]
      exact path_conclude _

/-- What playing a program does. -/
def playTouches (j : Job) (e : Execution) (program : Program) : List Touch :=
  match program.charge j.basicCost "TRANSACTION COST" with
  | .error _ => []
  | .ok program =>
    let p := j.interpret e program
    j.interpretTouches e program ++
      match Gas.sub j.transaction.gasLimit p.program.result.gasUsed with
      | .error _ => []
      | .ok left => j.wrapUpTouches { p with execution := { p.execution with gasLeft := left } }

theorem path_play {program : Program} (hprogram : e.program = some program)
    (hcontained : ∀ program v, j.handed? e = some (program, v) →
      j.context.interpreter.Contained program v) :
    e.Path (j.playTouches e program) (j.play e program).execution := by
  cases hcharge : program.charge j.basicCost "TRANSACTION COST" with
  | error fault =>
      simp only [playTouches, play, hcharge]
      exact .refl e
  | ok charged =>
      have hinterpret : e.Path (j.interpretTouches e charged) (j.interpret e charged).execution :=
        path_interpret fun hruns => hcontained charged e.inside
          (handed?_eq_some_iff.mpr ⟨hruns, rfl, program, hprogram, hcharge⟩)
      simp only [playTouches, play, hcharge, afterInterpreter]
      refine hinterpret.trans ?_
      generalize j.interpret e charged = p
      cases Gas.sub j.transaction.gasLimit p.program.result.gasUsed with
      | error fault => exact .refl _
      | ok left =>
          have hwrapped := path_wrapUp (j := j)
            { p with execution := { p.execution with gasLeft := left } }
          exact hwrapped.congr_left ⟨rfl, rfl⟩

/-- What keeping the account of a refused contract does. -/
def keepTouches (e : Execution) : List Touch :=
  match e.depositRefused, e.newContract with
  | true, some address =>
    (if e.inside.hasAccount address then [] else [.inner (.create address)]) ++ [.commit]
  | _, _ => []

theorem path_keepRefused (e : Execution) : e.Path (keepTouches e) (keepRefused e) := by
  unfold keepTouches keepRefused
  cases e.depositRefused with
  | false => exact .refl e
  | true =>
      cases e.newContract with
      | none => exact .refl e
      | some address =>
          simp only
          split
          · exact .cons trivial (.refl _)
          · exact .cons trivial (.cons trivial (.refl _))

/-- What closing a play does. -/
def closeTouches (p : Play) : List Touch :=
  match p.outcome with
  | .ok () => [.commit]
  | .error fault =>
    .rollback :: keepTouches (abort
      { p.execution with result := p.program.result, program := some p.program } fault)

theorem path_close (p : Play) : p.execution.Path (closeTouches p) (close p) := by
  cases houtcome : p.outcome with
  | ok =>
      simp only [closeTouches, close, houtcome]
      exact .cons trivial (.nil ⟨rfl, rfl⟩)
  | error fault =>
      simp only [closeTouches, close, houtcome]
      have hkept := path_keepRefused (abort
        { p.execution with result := p.program.result, program := some p.program } fault)
      exact .cons trivial (hkept.congr_left ⟨rfl, rfl⟩)

/-- What the second phase does. -/
def completeTouches (j : Job) (e : Execution) : List Touch :=
  match e.program with
  | none => [.commit]
  | some program => j.playTouches e program ++ closeTouches (j.play e program)

theorem path_complete (hcontained : ∀ program v, j.handed? e = some (program, v) →
      j.context.interpreter.Contained program v) :
    e.Path (j.completeTouches e) (j.complete e) := by
  unfold completeTouches complete
  cases hprogram : e.program with
  | none => exact .cons trivial (.refl _)
  | some program => exact (path_play hprogram hcontained).trans (path_close _)

theorem inner_keepRefused (hclean : e.inner = {}) : (keepRefused e).inner = {} := by
  unfold keepRefused
  split
  · rfl
  · exact hclean

/-- Nothing is pending after the second phase, whichever exit it has taken. -/
theorem inner_complete (j : Job) (e : Execution) : (j.complete e).inner = {} := by
  unfold complete
  split
  · rfl
  · unfold close
    split
    · rfl
    · exact inner_keepRefused rfl

/-! ## The third phase -/

/-- What is written below the run when it is settled. -/
def settleWrites (j : Job) (e : Execution) : List Write :=
  let r := creditDestroyed e.result
  let s := j.settlement r e.gasLeft
  (if e.prepaid then
      [.credit j.transaction.sender (Unsigned.addSat s.leftover s.refund),
        .credit j.context.feeRecipient s.fee]
    else []) ++
    r.codeChanges.toList.map (fun (address, code) => .saveCode address code) ++
    r.destroyed.toList.map .delete

theorem foldl_settleWrites (j : Job) (e : Execution) :
    (j.settleWrites e).foldl View.write e.outer =
      removeDestroyed (creditDestroyed e.result) (j.paidOut e) := by
  simp only [settleWrites, List.foldl_append, List.foldl_map, removeDestroyed, paidOut, saveChanges]
  cases e.prepaid <;> rfl

/-- What the third phase does. -/
def finalizeTouches (j : Job) (e : Execution) : List Touch :=
  if j.isLocal then [] else .commit :: (j.settleWrites e).map .outer

theorem path_finalize (e : Execution) : e.Path (j.finalizeTouches e) (j.finalize e) := by
  unfold finalizeTouches
  cases hlocal : j.isLocal with
  | true =>
      have hdone : j.finalize e = e := by simp only [finalize, hlocal, if_true]
      rw [hdone]
      exact .refl e
  | false =>
      refine .cons trivial ((Execution.Path.outers (e := e.commit) rfl _).congr_right ?_)
      have hsettled := foldl_settleWrites j e.commit
      rw [finalize_on_chain hlocal]
      exact ⟨hsettled, rfl⟩

/-! ## The whole -/

/-- All that executing the transaction does to its two views. -/
def touches (j : Job) (outer : View) (senders : SenderCache) : List Touch :=
  match j.validate outer senders with
  | (.error _, _) => []
  | (.ok (), senders) =>
    let e := j.run { outer, senders }
    j.runTouches { outer, senders } ++ j.completeTouches e ++ j.finalizeTouches (j.complete e)

theorem path_execute
    (hcontained : ∀ program v, j.interpreterCall? outer senders = some (program, v) →
      j.context.interpreter.Contained program v) :
    Execution.Path { outer, senders } (j.touches outer senders) (j.execute outer senders) := by
  cases hvalid : j.validate outer senders with
  | mk verdict cached =>
      cases verdict with
      | error reason =>
          simp only [touches, execute, hvalid]
          exact .nil ⟨rfl, rfl⟩
      | ok =>
          rw [interpreterCall?, hvalid] at hcontained
          simp only [touches, execute, hvalid]
          have hran : Execution.Path { outer, senders := cached }
              (j.runTouches { outer, senders := cached }) (j.run { outer, senders := cached }) :=
            path_run rfl
          have hplayed := hran.trans (path_complete hcontained)
          have hsettled := hplayed.trans (path_finalize (j := j) _)
          exact hsettled.congr_left ⟨rfl, rfl⟩

/-- Whatever is written below the run, the layer of the run is clean at that moment; all that is
written to either view can be told from two copies of the state, where a commit hands over what
was written below as well; and there is nothing left to commit when the transaction is settled. -/
theorem clean_when_written_below
    (hcontained : ∀ program v, j.interpreterCall? outer senders = some (program, v) →
      j.context.interpreter.Contained program v) :
    let start : Execution := { outer, senders }
    (start.touched (j.touches outer senders)).SameViews (j.execute outer senders) ∧
      (∀ before w after, j.touches outer senders = before ++ .outer w :: after →
        (start.touched before).inner = {}) ∧
      (∀ before after, j.touches outer senders = before ++ after →
        (start.touched before).shown = start.shown.touched before) ∧
      (j.played outer (j.validate outer senders).2).inner = {} := by
  have hpath := path_execute hcontained
  refine ⟨hpath.touched, fun before w after hsplit => hpath.clean hsplit,
    fun before after hsplit => ?_, j.inner_complete _⟩
  rw [hsplit] at hpath
  exact hpath.split.1.shown

/-- A creation whose code is refused writes below the run twice before its program is played and
twice after its account has been made again. -/
theorem clean_refusedCreation :
    let start : Execution := { outer := View.sample, senders := SenderCache.ofCapacity 1 }
    let touches := refusedCreation.touches View.sample (SenderCache.ofCapacity 1)
    let sender := refusedCreation.transaction.sender
    (refusedCreation.interpreterCall? View.sample (SenderCache.ofCapacity 1)).isSome = true ∧
      touches.filterMap Touch.below? =
        [.raiseNonce sender, .debit sender refusedCreation.prepayment, .credit sender 0,
          .credit refusedCreation.context.feeRecipient 120000] ∧
      ∀ before w after, touches = before ++ .outer w :: after →
        (start.touched before).inner = {} := by
  have hcontained : ∀ program v,
      refusedCreation.interpreterCall? View.sample (SenderCache.ofCapacity 1) =
        some (program, v) → refusedCreation.context.interpreter.Contained program v :=
    fun program v _ => Interpreter.scripted_contained _ program v
  refine ⟨?_, ?_, (clean_when_written_below hcontained).2.1⟩
  · decide +kernel
  · decide +kernel

end Job

end LedgerExec
