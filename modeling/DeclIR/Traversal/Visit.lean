import DeclIR.Traversal.Context

/-!
# Visits

A visit is a computation at a node.  It can read and change the node, the context and the visitor's
own state, and it can fail; a visit that fails leaves what it has changed until then, because the
changes of an aborted pass stay.

A visit of a part of the node becomes one of the node by `zoom`, and a visit of each element of a
list one of the list by `each`.
-/

namespace DeclIR

/-- A node being visited, the context it is visited in, and the visitor's own state. -/
structure Site (σ ν : Type) where
  node : ν
  context : Context
  own : σ

/-- A computation at a node of type `ν`, by a visitor with own state `σ`. -/
abbrev Visit (σ ν α : Type) := EStateM Fault (Site σ ν) α

namespace Visit

variable {σ τ ε ν μ α : Type}

/-- A visit followed by another runs the second where the first one ends, unless the first
fails. -/
@[simp] theorem bind_apply {β : Type} (w : Visit σ ν α) (f : α → Visit σ ν β) (s : Site σ ν) :
    (w >>= f) s = match w s with
      | .ok a t => f a t
      | .error e t => .error e t := by
  simp only [bind, EStateM.bind]
  cases w s <;> rfl

@[simp] theorem pure_apply (a : α) (s : Site σ ν) : (pure a : Visit σ ν α) s = .ok a s := rfl

@[simp] theorem throw_apply (f : Fault) (s : Site σ ν) :
    (throw f : Visit σ ν α) s = .error f s := rfl

@[simp] theorem get_apply (s : Site σ ν) : (get : Visit σ ν (Site σ ν)) s = .ok s s := rfl

@[simp] theorem modify_apply (f : Site σ ν → Site σ ν) (s : Site σ ν) :
    (modify f : Visit σ ν Unit) s = .ok () (f s) := rfl

/-- The node as it is now. -/
def node : Visit σ ν ν := do return (← get).node

/-- Puts another node in the place of the current one. -/
def setNode (n : ν) : Visit σ ν Unit := modify fun s => { s with node := n }

/-- The context as it is now. -/
def context : Visit σ ν Context := do return (← get).context

/-- Changes the context. -/
def mapContext (f : Context → Context) : Visit σ ν Unit :=
  modify fun s => { s with context := f s.context }

/-- Goes inwards to a node. -/
def enter (kind : NodeKind) (slot : Slot) : Visit σ ν Unit := mapContext (·.enter kind slot)

/-- Leaves a node and returns its frame. -/
def leave : Visit σ ν (Option Frame) := do
  let c ← context
  mapContext (·.leave)
  return c.frames.head?

@[simp] theorem node_apply (s : Site σ ν) : (node : Visit σ ν ν) s = .ok s.node s := rfl

@[simp] theorem setNode_apply (n : ν) (s : Site σ ν) :
    (setNode n : Visit σ ν Unit) s = .ok () { s with node := n } := rfl

@[simp] theorem context_apply (s : Site σ ν) :
    (context : Visit σ ν Context) s = .ok s.context s := rfl

@[simp] theorem mapContext_apply (f : Context → Context) (s : Site σ ν) :
    (mapContext f : Visit σ ν Unit) s = .ok () { s with context := f s.context } := rfl

@[simp] theorem enter_apply (kind : NodeKind) (slot : Slot) (s : Site σ ν) :
    (enter kind slot : Visit σ ν Unit) s = .ok () { s with context := s.context.enter kind slot } :=
  rfl

@[simp] theorem leave_apply (s : Site σ ν) :
    (leave : Visit σ ν (Option Frame)) s =
      .ok s.context.frames.head? { s with context := s.context.leave } := rfl

/-- Asks the context for an edit. -/
def request (r : Request) : Visit σ ν Unit := do
  match (← context).request r with
  | .ok c => mapContext fun _ => c
  | .error f => throw f

/-- Does to the node what can fail without changing it. -/
def attempt (f : ν → Except Fault ν) : Visit σ ν Unit := do
  match f (← node) with
  | .ok n => setNode n
  | .error e => throw e

/-- Runs a visit in a frame of its own, and returns the frame as it was left. -/
def inFrame (kind : NodeKind) (slot : Slot) (w : Visit σ ν Unit) : Visit σ ν (Option Frame) := do
  enter kind slot
  w
  leave

/-- Runs `parts` if `pre` says so, and `post` in either case. -/
def around (pre : Visit σ ν Bool) (parts post : Visit σ ν Unit) : Visit σ ν Unit := do
  if ← pre then
    parts
  post

@[simp] theorem inFrame_apply (kind : NodeKind) (slot : Slot) (w : Visit σ ν Unit) (s : Site σ ν) :
    inFrame kind slot w s = match w { s with context := s.context.enter kind slot } with
      | .ok _ t => .ok t.context.frames.head? { t with context := t.context.leave }
      | .error e t => .error e t := by
  simp only [inFrame, bind_apply, enter_apply, leave_apply]
  cases w { s with context := s.context.enter kind slot } <;> rfl

@[simp] theorem around_apply (pre : Visit σ ν Bool) (parts post : Visit σ ν Unit) (s : Site σ ν) :
    around pre parts post s = match pre s with
      | .ok true t => (parts >>= fun _ => post) t
      | .ok false t => post t
      | .error e t => .error e t := by
  simp only [around, bind_apply]
  split
  · rename_i descend _ _
    cases descend <;> simp [*]
  · simp [*]

@[simp] theorem request_apply (r : Request) (s : Site σ ν) :
    (request r : Visit σ ν Unit) s = match s.context.request r with
      | .ok c => .ok () { s with context := c }
      | .error f => .error f s := by
  simp only [request, bind_apply, context_apply]
  cases s.context.request r <;> rfl

@[simp] theorem attempt_apply (f : ν → Except Fault ν) (s : Site σ ν) :
    attempt f s = match f s.node with
      | .ok n => .ok () { s with node := n }
      | .error e => .error e s := by
  simp only [attempt, bind_apply, node_apply]
  cases f s.node <;> rfl

/-- Runs a visit at another site, and puts what it leaves back, whether it fails or not. -/
def zoom (get : Site σ ν → Site τ μ) (put : Site τ μ → Site σ ν → Site σ ν) (w : Visit τ μ α) :
    Visit σ ν α := fun s =>
  match w (get s) with
  | .ok a t => .ok a (put t s)
  | .error e t => .error e (put t s)

/-- Visits a part `x` of the node, where `put` gives the node with another part in that place. -/
def part (x : μ) (put : μ → ν) (w : Visit σ μ α) : Visit σ ν α :=
  zoom (fun s => ⟨x, s.context, s.own⟩) (fun t _ => ⟨put t.node, t.context, t.own⟩) w

/-- A visit by a visitor that does not know of the further state `ε`. -/
def beside (w : Visit σ ν α) : Visit (σ × ε) ν α :=
  zoom (fun s => ⟨s.node, s.context, s.own.1⟩)
    (fun t s => ⟨t.node, t.context, (t.own, s.own.2)⟩) w

@[simp] theorem part_apply (x : μ) (put : μ → ν) (w : Visit σ μ α) (s : Site σ ν) :
    part x put w s = match w ⟨x, s.context, s.own⟩ with
      | .ok a t => .ok a ⟨put t.node, t.context, t.own⟩
      | .error e t => .error e ⟨put t.node, t.context, t.own⟩ := rfl

@[simp] theorem beside_apply (w : Visit σ ν α) (s : Site (σ × ε) ν) :
    beside w s = match w ⟨s.node, s.context, s.own.1⟩ with
      | .ok a t => .ok a ⟨t.node, t.context, (t.own, s.own.2)⟩
      | .error e t => .error e ⟨t.node, t.context, (t.own, s.own.2)⟩ := rfl

/-- Visits the elements in order; the elements that a visit returns take the place of the one
visited.  If a visit fails, the elements behind it stay as they are. -/
def eachOf (w : Visit σ μ (List μ)) : List μ → Context → σ →
    EStateM.Result Fault (Site σ (List μ)) Unit
  | [], c, own => .ok () ⟨[], c, own⟩
  | x :: rest, c, own =>
    match w ⟨x, c, own⟩ with
    | .error e s => .error e ⟨s.node :: rest, s.context, s.own⟩
    | .ok segment s =>
      match eachOf w rest s.context s.own with
      | .ok _ t => .ok () ⟨segment ++ t.node, t.context, t.own⟩
      | .error e t => .error e ⟨segment ++ t.node, t.context, t.own⟩

/-- Visits each element of a list, which may be replaced by any number of elements. -/
def eachSegment (w : Visit σ μ (List μ)) : Visit σ (List μ) Unit := fun s =>
  eachOf w s.node s.context s.own

/-- Visits each element of a list. -/
def each (w : Visit σ μ Unit) : Visit σ (List μ) Unit :=
  eachSegment do
    w
    return [← node]

end Visit
end DeclIR
