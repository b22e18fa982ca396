import DeclIR.Fault

/-!
# The context of a traversal

The context knows the path from the outermost node to the current one, the declared type around it,
and whether anything was changed.  A visitor asks it for edits of the current node; they are kept in
the node's frame until the node is left.
-/

namespace DeclIR

/-- What becomes of a node once it is left. -/
inductive Edit where
  | removeStmt
  | replaceStmt (s : Stmt)
  | replaceExpr (e : Expr)

/-- One node on the path: its kind, its place and the edits requested for it. -/
structure Frame where
  kind : NodeKind
  slot : Slot
  edit : Option Edit := none
  /-- The statements to go in front of the node, in the order of the requests. -/
  before : List Stmt := []
  /-- The statements to go behind the node, in the order of the requests. -/
  after : List Stmt := []

/-- An edit that a visitor asks for. -/
inductive Request where
  | replaceStmt (s : Stmt)
  | removeStmt
  | insertBefore (s : Stmt)
  | insertAfter (s : Stmt)
  | replaceExpr (e : Expr)

namespace Request

/-- The place a node must be in for this edit. -/
def required : Request → Slot
  | replaceExpr _ => .expression
  | _ => .statement

/-- The name of the edit in messages. -/
def text : Request → String
  | replaceStmt _ => "replace a statement"
  | removeStmt => "remove a statement"
  | insertBefore _ => "insert a statement"
  | insertAfter _ => "insert a statement"
  | replaceExpr _ => "replace an expression"

end Request

namespace Frame

/-- Notes a request.  The last one of those that replace or remove the node counts. -/
def record (f : Frame) : Request → Frame
  | .replaceStmt s => { f with edit := some (.replaceStmt s) }
  | .removeStmt => { f with edit := some .removeStmt }
  | .insertBefore s => { f with before := f.before ++ [s] }
  | .insertAfter s => { f with after := f.after ++ [s] }
  | .replaceExpr e => { f with edit := some (.replaceExpr e) }

/-- The statements that take the place of statement `s` when its frame is left. -/
def segment (f : Frame) (s : Stmt) : List Stmt :=
  f.before ++
    (match f.edit with
      | some .removeStmt => []
      | some (.replaceStmt t) => [t]
      | _ => [s]) ++
    f.after

/-- The expression that takes the place of `e` when its frame is left. -/
def result (f : Frame) (e : Expr) : Expr :=
  match f.edit with
  | some (.replaceExpr r) => r
  | _ => e

end Frame

/-- The state of a traversal. -/
structure Context where
  /-- The nodes from the current one outwards. -/
  frames : List Frame := []
  /-- The declared type whose parts are being visited. -/
  enclosingType : Option TypeId := none
  changed : Bool := false

namespace Context

/-- The number of nodes on the path. -/
def depth (c : Context) : Nat := c.frames.length

/-- The kinds of the nodes from the current one outwards. -/
def ancestry (c : Context) : List NodeKind := c.frames.map (·.kind)

/-- The kind of the current node. -/
def current? (c : Context) : Option NodeKind := c.ancestry[0]?

/-- The kind of the node around the current one. -/
def parent? (c : Context) : Option NodeKind := c.ancestry[1]?

/-- The place of the current node. -/
def slot? (c : Context) : Option Slot := c.frames.head?.map (·.slot)

/-- Whether the current node can be removed. -/
def canRemove (c : Context) : Bool := c.slot? = some .statement

/-- Notes that something was changed without a request. -/
def markChanged (c : Context) : Context := { c with changed := true }

/-- Grants an edit of the current node if its place allows it. -/
def request (c : Context) (r : Request) : Except Fault Context :=
  match c.frames with
  | f :: outer =>
    if f.slot = r.required then .ok { c with frames := f.record r :: outer, changed := true }
    else .error (.invalidEdit r.text r.required)
  | [] => .error (.invalidEdit r.text r.required)

/-- Goes one node further inwards. -/
def enter (c : Context) (kind : NodeKind) (slot : Slot) : Context :=
  { c with frames := { kind, slot } :: c.frames }

/-- Leaves the current node. -/
def leave (c : Context) : Context := { c with frames := c.frames.tail }

@[simp] theorem leave_enter (c : Context) (kind : NodeKind) (slot : Slot) :
    (c.enter kind slot).leave = c := rfl

/-- A node that was just entered grants the edits of its place. -/
theorem request_enter (c : Context) (kind : NodeKind) (slot : Slot) (r : Request) :
    (c.enter kind slot).request r =
      if slot = r.required then
        .ok { c with frames := ({ kind, slot } : Frame).record r :: c.frames, changed := true }
      else .error (.invalidEdit r.text r.required) := rfl

end Context
end DeclIR
