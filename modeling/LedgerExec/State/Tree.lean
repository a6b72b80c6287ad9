import LedgerExec.State.View
set_option autoImplicit false

/-!
# Trees of views

Several views may stand on one view.  A `ViewTree` numbers views in the order in
which they were started, the root being 0, and keeps the layer of each; a view's
pile is read off its line of ancestors, and what an operation does to the pile is
written back to them.
-/

namespace LedgerExec

/-- A view in a tree: its own layer, and the number of the view it stands on. -/
structure ViewNode where
  parent : Option Nat
  layer : Layer
  deriving DecidableEq, Inhabited

/-- Views standing on each other. -/
structure ViewTree where
  nodes : List ViewNode
  deriving DecidableEq, Inhabited

namespace ViewTree

/-- A tree of one root view. -/
def ofRoot (v : View) : ViewTree := ⟨[⟨none, v.top⟩]⟩

/-- A view's number and those of its ancestors, at most `fuel` of them, the nearest first. -/
def line (t : ViewTree) : Nat → Nat → List Nat
  | 0, _ => []
  | fuel + 1, number =>
    match t.nodes[number]? with
    | none => []
    | some node =>
      match node.parent with
      | none => [number]
      | some parent => number :: t.line fuel parent

/-- The numbers of a view and its ancestors. -/
def ancestry (t : ViewTree) (number : Nat) : List Nat := t.line t.nodes.length number

/-- The view of a number. -/
def view (t : ViewTree) (number : Nat) : View :=
  match (t.ancestry number).filterMap fun n => (t.nodes[n]?).map (·.layer) with
  | [] => {}
  | top :: below => ⟨top, below⟩

/-- Starts a view on the view of a number. -/
def track (t : ViewTree) (number : Nat) : ViewTree := ⟨t.nodes ++ [⟨some number, {}⟩]⟩

/-- Replaces the layer of one view. -/
def setLayer (t : ViewTree) (number : Nat) (layer : Layer) : ViewTree :=
  ⟨t.nodes.modify number fun node => { node with layer }⟩

/-- Applies an operation to the view of a number. -/
def modify (t : ViewTree) (number : Nat) (f : View → View) : ViewTree :=
  ((t.ancestry number).zip (f (t.view number)).layers).foldl
    (fun t (number, layer) => t.setLayer number layer) t

end ViewTree

end LedgerExec
