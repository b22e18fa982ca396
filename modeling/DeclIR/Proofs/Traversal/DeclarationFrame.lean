import DeclIR.Proofs.Traversal.BottomUp
import DeclIR.Proofs.Traversal.Recording
import DeclIR.Proofs.Traversal.Steady

/-!
# What edits leave alone

A visitor whose hooks change no node can still ask for edits and return other annotations.  This
changes bodies, annotations and initializers, and nothing else that a program declares
(`Program.Kept`).  An initializer is reached through the anchors of its variable only, so the others
stay as well.

Which anchors a walk has come to is tallied by the calls of the hooks (`Tally`).  What is shown
holds of walks that fail, too.
-/

namespace DeclIR

open Visit

variable {σ τ ν α : Type}

/-! ## Programs with other code -/

/-- The place of a field or local variable in a program, by position. -/
inductive Place where
  | field (type index : Nat)
  | localVar (type method index : Nat)
deriving DecidableEq, Repr

/-- The same variable, except that its initializer may be another one if an anchor of it was
reached. -/
def Variable.Kept (reached : Prop) (x y : Variable) : Prop :=
  y = x ∨ reached ∧ ∃ g, y = x.mapInitializer g

/-- The same field, except that it may have other annotations, and another initializer if an anchor
of it was reached. -/
def Field.Kept (reached : Prop) (f g : Field) : Prop :=
  ∃ v tags, f.toVariable.Kept reached v ∧ g = { f with toVariable := v, tags }

/-- The same method, at this place, with other annotations and another body, and with other
initializers for the local variables that were reached. -/
def Method.Kept (reached : List Place) (type index : Nat) (m n : Method) : Prop :=
  ∃ tags body locals, body.isSome = m.body.isSome ∧
    Pointwise (fun i => Variable.Kept (.localVar type index i ∈ reached)) m.locals locals ∧
    n = { m with tags, body, locals }

/-- The same type, at this place, with other annotations and code. -/
def DeclaredType.Kept (reached : List Place) (index : Nat) (t u : DeclaredType) : Prop :=
  ∃ tags fields methods,
    Pointwise (fun i => Field.Kept (.field index i ∈ reached)) t.fields fields ∧
    Pointwise (Method.Kept reached index) t.methods methods ∧ u = { t with tags, fields, methods }

/-- The same program, except for annotations, for code, and for the initializers of the variables
that were reached. -/
def Program.Kept (reached : List Place) (p q : Program) : Prop :=
  Pointwise (DeclaredType.Kept reached) p.types q.types

section Kept

variable {reached reached' : List Place} {type index : Nat}

/-- Two rewrites of an initializer in a row are one rewrite by their composition. -/
lemma Variable.mapInitializer_mapInitializer (f g : Expr → Expr) (v : Variable) :
    (v.mapInitializer f).mapInitializer g = v.mapInitializer (g ∘ f) := by
  simp only [mapInitializer, Option.map_map, Function.comp_def]

lemma Field.mapInitializer_mapInitializer (f g : Expr → Expr) (x : Field) :
    (x.mapInitializer f).mapInitializer g = x.mapInitializer (g ∘ f) := by
  simp only [mapInitializer, Variable.mapInitializer_mapInitializer]

/-- Two rewrites of a declaration's initializer in a row are one rewrite by their composition. -/
lemma Declared.mapInitializer_mapInitializer (f g : Expr → Expr) (d : Declared) :
    (d.mapInitializer f).mapInitializer g = d.mapInitializer (g ∘ f) := by
  cases d with
  | field x => exact congrArg field (x.mapInitializer_mapInitializer f g)
  | localVar v => exact congrArg localVar (v.mapInitializer_mapInitializer f g)

namespace Variable.Kept

lemma refl (P : Prop) (x : Variable) : x.Kept P x := .inl rfl

/-- What is kept under a stricter licence is kept under a wider one. -/
lemma mono {P Q : Prop} {x y : Variable} (h : x.Kept P y) (hPQ : P → Q) : x.Kept Q y :=
  h.imp_right (.imp_left hPQ)

lemma trans {P : Prop} {x y z : Variable} (h : x.Kept P y) (h' : y.Kept P z) : x.Kept P z := by
  rcases h with rfl | ⟨hP, f, rfl⟩
  · exact h'
  · rcases h' with rfl | ⟨-, g, rfl⟩
    · exact .inr ⟨hP, f, rfl⟩
    · exact .inr ⟨hP, g ∘ f, x.mapInitializer_mapInitializer f g⟩

end Variable.Kept

namespace Field.Kept

lemma refl (P : Prop) (f : Field) : f.Kept P f := ⟨f.toVariable, f.tags, .refl .., rfl⟩

/-- A field kept under a stricter licence is kept under a wider one. -/
lemma mono {P Q : Prop} {f g : Field} (h : f.Kept P g) (hPQ : P → Q) : f.Kept Q g := by
  obtain ⟨v, tags, hv, rfl⟩ := h
  exact ⟨v, tags, hv.mono hPQ, rfl⟩

lemma trans {P : Prop} {f g k : Field} (h : f.Kept P g) (h' : g.Kept P k) : f.Kept P k := by
  obtain ⟨v, tags, hv, rfl⟩ := h
  obtain ⟨w, tags', hw, rfl⟩ := h'
  exact ⟨w, tags', hv.trans hw, rfl⟩

end Field.Kept

namespace Method.Kept

lemma refl (reached : List Place) (type index : Nat) (m : Method) :
    m.Kept reached type index m :=
  ⟨m.tags, m.body, m.locals, rfl, .refl (fun _ => .refl _) _, rfl⟩

/-- A method kept with few places reached is kept with more. -/
lemma mono {m n : Method} (h : m.Kept reached type index n) (hsub : reached ⊆ reached') :
    m.Kept reached' type index n := by
  obtain ⟨tags, body, locals, hbody, hlocals, rfl⟩ := h
  exact ⟨tags, body, locals, hbody, hlocals.mono fun _ _ _ h => h.mono fun hi => hsub hi, rfl⟩

lemma trans {m n o : Method} (h : m.Kept reached type index n) (h' : n.Kept reached type index o) :
    m.Kept reached type index o := by
  obtain ⟨tags, body, locals, hbody, hlocals, rfl⟩ := h
  obtain ⟨tags', body', locals', hbody', hlocals', rfl⟩ := h'
  exact ⟨tags', body', locals', hbody'.trans hbody,
    hlocals.trans (fun _ _ _ _ => Variable.Kept.trans) hlocals', rfl⟩

end Method.Kept

namespace DeclaredType.Kept

lemma refl (reached : List Place) (index : Nat) (t : DeclaredType) : t.Kept reached index t :=
  ⟨t.tags, t.fields, t.methods, .refl (fun _ => .refl _) _, .refl (fun _ _ => .refl ..) _, rfl⟩

/-- A type kept with few places reached is kept with more. -/
lemma mono {t u : DeclaredType} (h : t.Kept reached index u) (hsub : reached ⊆ reached') :
    t.Kept reached' index u := by
  obtain ⟨tags, fields, methods, hfields, hmethods, rfl⟩ := h
  exact ⟨tags, fields, methods, hfields.mono fun _ _ _ h => h.mono fun hi => hsub hi,
    hmethods.mono fun _ _ _ h => h.mono hsub, rfl⟩

lemma trans {t u w : DeclaredType} (h : t.Kept reached index u) (h' : u.Kept reached index w) :
    t.Kept reached index w := by
  obtain ⟨tags, fields, methods, hfields, hmethods, rfl⟩ := h
  obtain ⟨tags', fields', methods', hfields', hmethods', rfl⟩ := h'
  exact ⟨tags', fields', methods', hfields.trans (fun _ _ _ _ => Field.Kept.trans) hfields',
    hmethods.trans (fun _ _ _ _ => Method.Kept.trans) hmethods', rfl⟩

end DeclaredType.Kept
end Kept

/-! ## Tallies -/

/-- How far a walk has come in a program, and the variables whose anchors it has reached. -/
structure Tally where
  /-- The number of types that have been left. -/
  types : Nat := 0
  /-- The number of methods that have been left in the current type. -/
  methods : Nat := 0
  reached : List Place := []
deriving DecidableEq, Repr

namespace Tally

/-- The place of the variable in a slot, in the current type and method. -/
def place (t : Tally) : VarSlot → Place
  | .field id => .field t.types id.index
  | .localVar i => .localVar t.types t.methods i

/-- The tally after a hook. -/
def step (t : Tally) : Phase → Node → Tally
  | .pre, .type _ => { t with methods := 0 }
  | .post, .type _ => { t with types := t.types + 1 }
  | .post, .method _ => { t with methods := t.methods + 1 }
  | .pre, .declaration slot _ _ => { t with reached := t.reached ++ [t.place slot] }
  | _, _ => t

/-- While a method is visited, variables may be reached. -/
structure Within (a b : Tally) : Prop where
  types_eq : b.types = a.types
  methods_eq : b.methods = a.methods
  reached : a.reached ⊆ b.reached

/-- A tally stands within itself. -/
lemma Within.refl (a : Tally) : a.Within a := ⟨rfl, rfl, fun _ => id⟩

lemma Within.of_eq {a b : Tally} (h : b = a) : a.Within b := h ▸ .refl a

/-- Standing within composes along a walk. -/
lemma Within.trans {a b c : Tally} (h : a.Within b) (h' : b.Within c) : a.Within c :=
  ⟨h'.types_eq.trans h.types_eq, h'.methods_eq.trans h.methods_eq,
    List.Subset.trans h.reached h'.reached⟩

end Tally

/-- Keeps a tally beside a hook. -/
def Visit.tallying (phase : Phase) (x : ν → Node) (w : Visit σ ν α) : Visit (σ × Tally) ν α :=
  zoom (·.map Prod.fst)
    (fun t s => ⟨t.node, t.context, (t.own, s.own.2.step phase (x s.node))⟩) w

/-- The counting of a hook reads the walk and writes to the tally alone, so it erases to the walk.
-/
lemma Visit.tallying_erasesTo (phase : Phase) (x : ν → Node) (w : Visit σ ν α) :
    (w.tallying phase x).ErasesTo Prod.fst w := by
  intro s
  unfold tallying zoom
  cases w (s.map Prod.fst) <;> rfl

/-- The visitor that also keeps a tally. -/
def Visitor.tallied (v : Visitor σ) : Visitor (σ × Tally) :=
  v.wrap (fun _ _ => Visit.tallying) fun _ => beside

/-- The tally takes no part in the walk. -/
theorem Visitor.tallied_erasesTo (v : Visitor σ) : v.tallied.ErasesTo Prod.fst v :=
  wrap_erasesTo (fun _ _ => tallying_erasesTo) fun _ => .of_beside

/-- No hook changes the node that it is called with, and each steps the tally. -/
structure Visitor.Tallies (v : Visitor τ) (tally : τ → Tally) : Prop where
  hooks : v.Hooks fun _ _ phase x w => ∀ s,
    (w.after s).node = s.node ∧ tally (w.after s).own = (tally s.own).step phase (x s.node)
  keepTags : ∀ keep list, v.keepTags = some keep →
    ∀ s, tally ((keep list).after s).own = tally s.own

/-- The tallied form of a visitor that spares declarations counts what it begins and finishes. -/
lemma Visitor.Spares.tallies {v : Visitor σ} (hs : v.Spares) : v.tallied.Tallies Prod.snd where
  hooks := by
    refine .wrap (fun ν α phase x w hw s => ?_) hs
    unfold tallying
    rw [after_zoom]
    exact ⟨hw (s.map Prod.fst), rfl⟩
  keepTags keep list hkeep s := by
    obtain ⟨keep, -, rfl⟩ := Option.map_eq_some_iff.mp hkeep
    show Prod.snd ((beside (keep list)).after s).own = s.own.2
    unfold beside
    rw [after_zoom]

/-! ## Walks over bodies -/

section Relations

variable (tally : τ → Tally)

/-- The tally is the same. -/
def SameTally (a b : τ) : Prop := tally b = tally a

/-- The fields of a type are kept, and those that are changed were reached. -/
structure KeepsFields (a b : τ × List Field) : Prop where
  types_eq : (tally b.1).types = (tally a.1).types
  reached : (tally a.1).reached ⊆ (tally b.1).reached
  fields : Pointwise (fun i => Field.Kept (.field (tally a.1).types i ∈ (tally b.1).reached))
    a.2 b.2

/-- The variables in reach of a body are kept, and those that are changed were reached. -/
structure KeepsScope (a b : τ × Scope) : Prop
    extends KeepsFields tally (a.1, a.2.fields) (b.1, b.2.fields) where
  methods_eq : (tally b.1).methods = (tally a.1).methods
  locals : Pointwise (fun i => Variable.Kept
      (.localVar (tally a.1).types (tally a.1).methods i ∈ (tally b.1).reached))
    a.2.locals b.2.locals

/-- The variable of an anchor gets another initializer at most. -/
structure Reinitializes (s t : Site τ Declared) : Prop where
  within : (tally s.own).Within (tally t.own)
  node : ∃ g, t.node = s.node.mapInitializer g

/-- A method and the fields around it are kept. -/
structure KeepsMethod (s t : Site (τ × List Field) Method) : Prop
    extends KeepsFields tally s.own t.own where
  methods_eq : (tally t.own.1).methods = (tally s.own.1).methods
  node : s.node.Kept (tally t.own.1).reached (tally s.own.1).types (tally s.own.1).methods t.node

/-- A type is kept. -/
structure KeepsType (s t : Site τ DeclaredType) : Prop where
  types_eq : (tally t.own).types = (tally s.own).types
  reached : (tally s.own).reached ⊆ (tally t.own).reached
  node : s.node.Kept (tally t.own).reached (tally s.own).types t.node

variable {tally}

instance : IsPreorder τ (SameTally tally) where
  refl _ := rfl
  trans _ _ _ h h' := h'.trans h

instance : IsPreorder (τ × List Field) (KeepsFields tally) where
  refl a := ⟨rfl, fun _ => id, .refl (fun _ => .refl _) _⟩
  trans a b c h h' := by
    have hfields := h'.fields
    rw [h.types_eq] at hfields
    refine ⟨h'.types_eq.trans h.types_eq, List.Subset.trans h.reached h'.reached, ?_⟩
    exact (h.fields.mono fun _ _ _ hf => hf.mono fun hi => h'.reached hi).trans
      (fun _ _ _ _ => Field.Kept.trans) hfields

instance : IsPreorder (τ × Scope) (KeepsScope tally) where
  refl a := ⟨refl_of (KeepsFields tally) _, rfl, .refl (fun _ => .refl _) _⟩
  trans a b c h h' := by
    have hlocals := h'.locals
    rw [h.types_eq, h.methods_eq] at hlocals
    refine ⟨trans_of (KeepsFields tally) h.toKeepsFields h'.toKeepsFields,
      h'.methods_eq.trans h.methods_eq, ?_⟩
    exact (h.locals.mono fun _ _ _ hv => hv.mono fun hi => h'.reached hi).trans
      (fun _ _ _ _ => Variable.Kept.trans) hlocals

/-- A step that keeps the declaration it stands at, and only counts on, reinitializes it trivially.
-/
lemma Reinitializes.of_node_eq {s t : Site τ Declared}
    (hwithin : (tally s.own).Within (tally t.own)) (hnode : t.node = s.node) :
    Reinitializes tally s t :=
  ⟨hwithin, id, hnode.trans (Declared.mapInitializer_self fun _ _ => rfl).symm⟩

instance : IsPreorder (Site τ Declared) (Reinitializes tally) where
  refl _ := .of_node_eq (.refl _) rfl
  trans s t u h h' := by
    obtain ⟨g, hg⟩ := h.node
    obtain ⟨g', hg'⟩ := h'.node
    refine ⟨h.within.trans h'.within, g' ∘ g, ?_⟩
    rw [hg', hg, Declared.mapInitializer_mapInitializer]

instance : IsPreorder (Site (τ × List Field) Method) (KeepsMethod tally) where
  refl s := ⟨refl_of (KeepsFields tally) s.own, rfl, .refl ..⟩
  trans s t u h h' := by
    have hnode := h'.node
    rw [h.types_eq, h.methods_eq] at hnode
    exact ⟨trans_of (KeepsFields tally) h.toKeepsFields h'.toKeepsFields,
      h'.methods_eq.trans h.methods_eq, (h.node.mono h'.reached).trans hnode⟩

/-- Keeping a type composes along the walk of its parts. -/
lemma KeepsType.trans {s t u : Site τ DeclaredType} (h : KeepsType tally s t)
    (h' : KeepsType tally t u) : KeepsType tally s u := by
  have hnode := h'.node
  rw [h.types_eq] at hnode
  exact ⟨h'.types_eq.trans h.types_eq, List.Subset.trans h.reached h'.reached,
    (h.node.mono h'.reached).trans hnode⟩

/-- A step that leaves the tally alone keeps the fields. -/
lemma keepsFields_of_same {a b : τ} (fields : List Field) (h : SameTally tally a b) :
    KeepsFields tally (a, fields) (b, fields) :=
  ⟨congrArg Tally.types h, (Tally.Within.of_eq h).reached, .refl (fun _ => .refl _) _⟩

/-- A step that leaves the tally alone keeps the scope of the method. -/
lemma keepsScope_of_same {a b : τ} (scope : Scope) (h : SameTally tally a b) :
    KeepsScope tally (a, scope) (b, scope) :=
  ⟨keepsFields_of_same scope.fields h, congrArg Tally.methods h, .refl (fun _ => .refl _) _⟩

end Relations

namespace Visitor.Tallies

variable {v : Visitor τ} {tally : τ → Tally} (hv : v.Tallies tally)
include hv

/-- The hooks that are called inside of methods, those for anchors apart, leave the tally as it is.
-/
lemma steady : v.Steady (SameTally tally) where
  visitParameter s := (hv.hooks.visitParameter s).2
  endVisitParameter s := (hv.hooks.endVisitParameter s).2
  visitTag t s := (hv.hooks.visitTag t s).2
  endVisitTag t s := (hv.hooks.endVisitTag t s).2
  keepTags keep list hkeep s := hv.keepTags keep list hkeep s
  visitBlock s := (hv.hooks.visitBlock s).2
  endVisitBlock s := (hv.hooks.endVisitBlock s).2
  visitStmt s := (hv.hooks.visitStmt s).2
  endVisitStmt s := (hv.hooks.endVisitStmt s).2
  visitExpr s := (hv.hooks.visitExpr s).2
  endVisitExpr s := (hv.hooks.endVisitExpr s).2

/-- Only the initializer is put back into a declaration statement. -/
lemma walkInitializer : v.walkInitializer.Leads (Reinitializes tally) := by
  intro s
  unfold Visitor.walkInitializer
  rw [after_node_bind]
  cases hx : s.node.base.declaration with
  | none => exact refl_of (Reinitializes tally) s
  | some x =>
    show Reinitializes tally s ((zoom _ _ v.walkExpr).after s)
    rw [after_zoom]
    refine ⟨.of_eq (hv.steady.walkExpr ⟨x.initializer, s.context, s.own⟩),
      fun _ => (v.walkExpr.after ⟨x.initializer, s.context, s.own⟩).node, ?_⟩
    rw [Declared.mapInitializer_of_some hx]

/-- The variable of an anchor counts as reached from the first hook on, even if this fails. -/
lemma aroundDeclaration (info : Provenance) (slot : VarSlot) (s : Site τ Declared) :
    let t := (around (v.visitDeclaration slot info) v.walkInitializer
      (v.endVisitDeclaration slot info)).after s
    Reinitializes tally s t ∧ (tally s.own).place slot ∈ (tally t.own).reached := by
  have hpre : (v.visitDeclaration slot info).Leads (Reinitializes tally) := by
    intro s
    obtain ⟨hnode, htally⟩ := hv.hooks.visitDeclaration slot info s
    refine .of_node_eq ?_ hnode
    rw [htally]
    exact ⟨rfl, rfl, List.subset_append_left ..⟩
  have hpost : (v.endVisitDeclaration slot info).Leads (Reinitializes tally) := by
    intro s
    obtain ⟨hnode, htally⟩ := hv.hooks.endVisitDeclaration slot info s
    exact .of_node_eq (.of_eq htally) hnode
  refine ⟨Leads.around hpre hv.walkInitializer hpost s, ?_⟩
  -- What the first hook has noted stays, whatever comes behind it.
  refine (Leads.pre_around _ hv.walkInitializer hpost s).within.reached ?_
  rw [(hv.hooks.visitDeclaration slot info s).2]
  exact List.mem_append_right _ (List.mem_singleton_self _)

/-- The variable of an anchor is put back into its place, which counts as reached. -/
lemma walkDeclaration (info : Provenance) (slot : VarSlot) :
    (v.walkDeclaration info slot).Leads (ByOwn (KeepsScope tally)) := by
  rintro ⟨x, c, own, scope⟩
  unfold Visitor.walkDeclaration
  rw [after_get_bind]
  cases hd : scope.resolve? slot with
  | none => exact refl_of (KeepsScope tally) (own, scope)
  | some d =>
    obtain ⟨⟨hwithin, g, hnode⟩, hreached⟩ := hv.aroundDeclaration info slot ⟨d, c, own⟩
    -- What has become of the variable is put back even if the visit failed.
    show KeepsScope tally (own, scope) ((zoom _ _ _).after _).own
    rw [after_zoom]
    simp only [hnode]
    cases slot with
    | field id =>
      obtain ⟨-, f, hf, rfl⟩ := Scope.resolve?_field_eq_some_iff.mp hd
      refine ⟨⟨hwithin.types_eq, hwithin.reached, ?_⟩, hwithin.methods_eq,
        .refl (fun _ => .refl _) _⟩
      exact .set (fun _ => .refl _) hf ⟨_, _, .inr ⟨hreached, g, rfl⟩, rfl⟩
    | localVar i =>
      obtain ⟨y, hy, rfl⟩ := Scope.resolve?_localVar_eq_some_iff.mp hd
      refine ⟨⟨hwithin.types_eq, hwithin.reached, .refl (fun _ => .refl _) _⟩,
        hwithin.methods_eq, ?_⟩
      exact .set (fun _ => .refl _) hy (.inr ⟨hreached, g, rfl⟩)

/-- The walk over a body rewrites initializers of the scope at most, and only those whose anchors it
reached. -/
lemma walkBody : v.walkBody.Leads (ByOwn (KeepsScope tally)) :=
  hv.steady.walkBody (fun _ _ => keepsScope_of_same) hv.walkDeclaration

/-! ## Walks over declarations -/

/-- The annotations of a node are exchanged at most. -/
lemma inTags (get : ν → List Tag) (put : ν → List Tag → ν) (hput : ∀ n, put n (get n) = n)
    (s : Site τ ν) :
    SameTally tally s.own ((v.inTags get put).after s).own ∧
      ∃ tags, ((v.inTags get put).after s).node = put s.node tags :=
  ⟨hv.steady.inTags get put s, exists_node_after_inTags hput s⟩

/-- A field is visited without its initializer. -/
lemma walkField (s : Site τ Field) :
    SameTally tally s.own (v.walkField.after s).own ∧
      ∃ tags, (v.walkField.after s).node = { s.node with tags } := by
  let S (s t : Site τ Field) : Prop := SameTally tally s.own t.own ∧ t.node = s.node
  let T (s t : Site τ Field) : Prop :=
    SameTally tally s.own t.own ∧ ∃ tags, t.node = { s.node with tags }
  have hwalk : v.walkField.Ends fun _ => T := by
    unfold Visitor.walkField
    refine .inFrame (fun _ _ h => h) (.around (S := S) (T := T) ?_ ?_ ?_ ?_ fun _ _ h => h) _ _
    · exact fun s => (hv.hooks.visitField s).symm
    · exact fun s t ⟨htally, hnode⟩ => ⟨htally, s.node.tags, hnode⟩
    · -- Only here something of the field is exchanged, and it is the annotations.
      intro s t ⟨htally, hnode⟩
      obtain ⟨htally', tags, hnode'⟩ :=
        hv.inTags Field.tags (fun f tags => { f with tags }) (fun _ => rfl) t
      refine ⟨htally'.trans htally, tags, ?_⟩
      rw [hnode', hnode]
    · intro _ s t ⟨htally, tags, hnode⟩
      obtain ⟨hnode', htally'⟩ := hv.hooks.endVisitField t
      exact ⟨htally'.trans htally, tags, hnode'.trans hnode⟩
  exact (hwalk.after s).choose_spec

/-- The walk over a parameter leaves the tally and the parameter as they were. -/
lemma walkParameter (s : Site τ Variable) :
    SameTally tally s.own (v.walkParameter.after s).own ∧
      (v.walkParameter.after s).node = s.node := by
  let S (s t : Site τ Variable) : Prop := SameTally tally s.own t.own ∧ t.node = s.node
  have hwalk : v.walkParameter.Ends fun _ => S := by
    unfold Visitor.walkParameter
    refine .inFrame (fun _ _ h => h) (.around (S := S) (T := S) ?_ (fun _ _ h => h) ?_ ?_
      fun _ _ h => h) _ _
    · exact fun s => (hv.hooks.visitParameter s).symm
    · exact fun _ _ h => h
    · intro _ s t ⟨htally, hnode⟩
      obtain ⟨hnode', htally'⟩ := hv.hooks.endVisitParameter t
      exact ⟨htally'.trans htally, hnode'.trans hnode⟩
  exact (hwalk.after s).choose_spec

/-- The walk over the parameters leaves the tally and the method as they were. -/
lemma inParameters (s : Site τ Method) :
    SameTally tally s.own (v.inParameters.after s).own ∧
      (v.inParameters.after s).node = s.node := by
  obtain ⟨htally, hparameters⟩ := after_each_pointwise (P := fun x y => y = x) (fun _ => rfl)
    hv.walkParameter s.node.parameters s.context s.own
  unfold Visitor.inParameters part
  rw [after_node_bind, after_zoom]
  refine ⟨htally, ?_⟩
  rw [hparameters.eq_of_forall fun _ _ _ h => h]

/-- A method has a body afterwards if it has one before. -/
lemma inBody : v.inBody.Leads (KeepsMethod tally) := by
  rintro ⟨m, c, own, fields⟩
  unfold Visitor.inBody
  rw [after_node_bind]
  cases hbody : m.body with
  | none =>
    exact refl_of (KeepsMethod tally) _
  | some body =>
    rw [after_zoom]
    have hscope := hv.walkBody ⟨body, c, (own, ⟨m.owner, fields, m.locals⟩)⟩
    exact ⟨hscope.toKeepsFields, hscope.methods_eq, m.tags, _, _, by simp [hbody],
      hscope.locals, rfl⟩

omit hv in
/-- A visit that does not know of the fields, and exchanges annotations at most. -/
lemma keepsMethod_beside {w : Visit τ Method α}
    (hw : ∀ s, SameTally tally s.own (w.after s).own ∧
      ∃ tags, (w.after s).node = { s.node with tags }) :
    (beside w).Leads (KeepsMethod tally) := by
  rintro ⟨m, c, own, fields⟩
  unfold beside
  rw [after_zoom]
  obtain ⟨htally, tags, hnode⟩ := hw ⟨m, c, own⟩
  simp only [hnode]
  exact ⟨keepsFields_of_same fields htally, congrArg Tally.methods htally, tags, m.body, m.locals,
    rfl, .refl (fun _ => .refl _) _, rfl⟩

/-- The walk inside a method keeps it up to its tags, its code and the initializers reached. -/
lemma inMethod : v.inMethod.Leads (KeepsMethod tally) := by
  have hparameters : (beside v.inParameters).Leads (KeepsMethod tally) := by
    refine keepsMethod_beside fun s => ?_
    obtain ⟨htally, hnode⟩ := hv.inParameters s
    exact ⟨htally, s.node.tags, hnode⟩
  unfold Visitor.inMethod
  refine .bind (keepsMethod_beside ?_) fun _ => .bind hparameters fun _ => hv.inBody
  exact hv.inTags Method.tags (fun m tags => { m with tags }) fun _ => rfl

/-- Visiting a method keeps it and the fields around it.  If it succeeds, one more method has been
left. -/
structure MethodEnds (tally : τ → Tally) (succeeds : Bool) (s t : Site (τ × List Field) Method) :
    Prop extends KeepsFields tally s.own t.own where
  node : s.node.Kept (tally t.own.1).reached (tally s.own.1).types (tally s.own.1).methods t.node
  next : succeeds = true → (tally t.own.1).methods = (tally s.own.1).methods + 1

/-- The walk over a method keeps it and, where it ends well, counts it as finished. -/
lemma walkMethod : v.walkMethod.Ends (MethodEnds tally) := by
  unfold Visitor.walkMethod
  refine .inFrame (fun _ _ h => ⟨h.toKeepsFields, h.node, h.next⟩) (.around (S := KeepsMethod tally)
    (T := KeepsMethod tally) (keepsMethod_beside ?_) (fun _ _ => id) ?_ ?_ ?_) _ _
  · intro s
    obtain ⟨hnode, htally⟩ := hv.hooks.visitMethod s
    exact ⟨htally, s.node.tags, hnode⟩
  · exact fun s t h => trans_of (KeepsMethod tally) h (hv.inMethod t)
  · -- The last hook counts the method as left, and a walk that fails does not come to it.
    rintro _ s ⟨m, c, own, fields⟩ h
    obtain ⟨hnode, htally⟩ := hv.hooks.endVisitMethod ⟨m, c, own⟩
    have hnext := congrArg (· + 1) h.methods_eq
    unfold beside
    rw [after_zoom]
    refine ⟨⟨?_, ?_, ?_⟩, ?_, fun _ => ?_⟩ <;> simp only [htally, hnode]
    · exact h.types_eq
    · exact h.reached
    · exact h.fields
    · exact h.node
    · exact hnext
  · exact fun s t h => ⟨h.toKeepsFields, h.node, nofun⟩

/-! ## Walks over types -/

/-- The walk over a type's annotations keeps everything of the type but the annotations. -/
lemma inTags_keepsType (s : Site τ DeclaredType) :
    let t := (v.inTags (·.tags) fun t tags => { t with tags }).after s
    KeepsType tally s t ∧ (tally t.own).methods = (tally s.own).methods := by
  obtain ⟨htally, tags, hnode⟩ :=
    hv.inTags DeclaredType.tags (fun t tags => { t with tags }) (fun _ => rfl) s
  have hsame : tally ((v.inTags (·.tags) fun t tags => { t with tags }).after s).own =
    tally s.own := htally
  refine ⟨⟨congrArg Tally.types hsame, ?_, ?_⟩, congrArg Tally.methods hsame⟩
  · rw [hsame]
    exact fun _ => id
  · exact hnode ▸ ⟨tags, s.node.fields, s.node.methods, .refl (fun _ => .refl _) _,
      .refl (fun _ _ => .refl ..) _, rfl⟩

/-- The walk over a type's fields keeps them up to their tags. -/
lemma inFields_keepsType (s : Site τ DeclaredType) :
    KeepsType tally s (v.inFields.after s) ∧
      (tally (v.inFields.after s).own).methods = (tally s.own).methods := by
  obtain ⟨htally, hfields⟩ := after_each_pointwise (P := fun f g => ∃ tags, g = { f with tags })
    (fun f => ⟨f.tags, rfl⟩) hv.walkField s.node.fields s.context s.own
  unfold inFields part
  rw [after_node_bind, after_zoom]
  -- A field that differs in its annotations only is kept whether it was reached or not.
  have hkept := hfields.mono (S := fun _ => Field.Kept False) fun _ f _ ⟨tags, hg⟩ =>
    ⟨f.toVariable, tags, .refl .., hg⟩
  refine ⟨⟨congrArg Tally.types htally, ?_, s.node.tags, _, s.node.methods,
    hkept.mono fun _ _ _ h => h.mono False.elim, .refl (fun _ _ => .refl ..) _, rfl⟩,
    congrArg Tally.methods htally⟩
  exact (Tally.Within.of_eq htally).reached

/-- The walk over a type's methods keeps each of them at its own index. -/
lemma inMethods_keepsType (s : Site τ DeclaredType) (hzero : (tally s.own).methods = 0) :
    KeepsType tally s (v.inMethods.after s) := by
  have hwalk (s : Site (τ × List Field) Method) :
      KeepsFields tally s.own (v.walkMethod.after s).own ∧
      s.node.Kept (tally (v.walkMethod.after s).own.1).reached
        (tally (v.walkMethod.after s).own.1).types (tally s.own.1).methods
        (v.walkMethod.after s).node := by
    obtain ⟨succeeds, h⟩ := hv.walkMethod.after s
    exact ⟨h.toKeepsFields, h.types_eq ▸ h.node⟩
  obtain ⟨hkeeps, hmethods⟩ := after_each (R := KeepsFields tally)
    (P := fun own => Method.Kept (tally own.1).reached (tally own.1).types)
    (fun own => (tally own.1).methods) (fun _ _ _ => .refl ..)
    (fun h h' => h.types_eq ▸ h'.mono h.reached) hwalk
    (fun s t h => (hv.walkMethod.of_ok h).next rfl)
    s.node.methods s.context (s.own, s.node.fields)
  -- Nothing was left in this type before, so the positions are those in the list.
  simp only [hzero, Nat.zero_add, hkeeps.types_eq] at hmethods
  unfold inMethods
  rw [after_node_bind, after_zoom]
  exact ⟨hkeeps.types_eq, hkeeps.reached, s.node.tags, _, _, hkeeps.fields, hmethods, rfl⟩

/-- The walk inside a type keeps it up to the places it reached. -/
lemma inType_keepsType (s : Site τ DeclaredType) (hzero : (tally s.own).methods = 0) :
    KeepsType tally s (v.inType.after s) := by
  obtain ⟨htags, hmethods⟩ := hv.inTags_keepsType s
  unfold inType
  refine after_bind KeepsType.trans htags fun _ => ?_
  obtain ⟨hfields, hmethods'⟩ := hv.inFields_keepsType _
  refine after_bind KeepsType.trans hfields fun _ => hv.inMethods_keepsType _ ?_
  exact hmethods'.trans (hmethods.trans hzero)

/-- Visiting a type keeps it.  If it succeeds, one more type has been left. -/
structure TypeEnds (tally : τ → Tally) (succeeds : Bool) (s t : Site τ DeclaredType) : Prop where
  reached : (tally s.own).reached ⊆ (tally t.own).reached
  node : s.node.Kept (tally t.own).reached (tally s.own).types t.node
  next : succeeds = true → (tally t.own).types = (tally s.own).types + 1

/-- The walk over a type keeps it and, where it ends well, counts it as finished. -/
lemma walkType : v.walkType.Ends (TypeEnds tally) := by
  unfold Visitor.walkType
  refine .node_bind fun t => .inFrame (fun _ _ h => ⟨h.reached, h.node, h.next⟩) ?_ _ _
  refine .enclosedBy (fun _ _ h => ⟨h.reached, h.node, h.next⟩) ?_ _
  refine .around (S := fun s t => KeepsType tally s t ∧ (tally t.own).methods = 0)
    (T := KeepsType tally) ?_ (fun _ _ => And.left) ?_ ?_
    (fun _ _ h => ⟨h.reached, h.node, nofun⟩)
  · intro s
    -- The methods of the type before this one no longer count.
    obtain ⟨hnode, htally⟩ := hv.hooks.visitType s
    refine ⟨⟨?_, ?_, ?_⟩, ?_⟩ <;> simp only [htally, hnode]
    · rfl
    · exact fun _ => id
    · exact .refl ..
    · rfl
  · intro s t ⟨hst, hzero⟩
    exact hst.trans (hv.inType_keepsType t hzero)
  · intro _ s t hst
    obtain ⟨hnode, htally⟩ := hv.hooks.endVisitType t
    have hnext := congrArg (· + 1) hst.types_eq
    refine ⟨?_, ?_, fun _ => ?_⟩ <;> simp only [htally, hnode]
    · exact hst.reached
    · exact hst.node
    · exact hnext

/-! ## Programs -/

/-- The walk over a program keeps the types at their positions, the unreached ones untouched. -/
lemma walkProgram (p : Program) (c : Context) (own : τ) (hzero : (tally own).types = 0) :
    let t := v.walkProgram.after ⟨p, c, own⟩
    p.Kept (tally t.own).reached t.node := by
  let R (a b : τ) : Prop := (tally a).reached ⊆ (tally b).reached
  have hR : IsPreorder τ R :=
    { refl _ := List.Subset.refl _
      trans _ _ _ := List.Subset.trans }
  -- What is said of one type holds of all, as each of them ends with one more type counted.
  have hwalk (s : Site τ DeclaredType) : R s.own (v.walkType.after s).own ∧
      s.node.Kept (tally (v.walkType.after s).own).reached (tally s.own).types
        (v.walkType.after s).node := by
    obtain ⟨succeeds, h⟩ := hv.walkType.after s
    exact ⟨h.reached, h.node⟩
  obtain ⟨-, htypes⟩ := after_each (R := R)
    (P := fun own => DeclaredType.Kept (tally own).reached) (fun own => (tally own).types)
    (fun _ _ _ => .refl ..) (fun h h' => h'.mono h) hwalk
    (fun s t h => (hv.walkType.of_ok h).next rfl) p.types c own
  simp only [hzero, Nat.zero_add] at htypes
  unfold Visitor.walkProgram part
  rw [after_node_bind, after_zoom]
  exact htypes

end Visitor.Tallies

/-- A traversal by a visitor whose hooks change no node keeps the declarations of the program,
whether it fails or not.  The initializers that may be others are those of the variables that it
came to an anchor of, as the tally of the same traversal says. -/
theorem Program.traverse_keeps {v : Visitor σ} (hs : v.Spares) (p : Program) (own : σ) :
    let tallied := p.traverse v.tallied (own, {})
    p.traverse v own = erase Prod.fst tallied ∧
      p.Kept (endState tallied).own.2.reached (endState (p.traverse v own)).node := by
  have herases : p.traverse v own = erase Prod.fst (p.traverse v.tallied (own, {})) :=
    v.tallied_erasesTo.walkProgram ⟨p, {}, (own, {})⟩
  -- The tally is not part of the program.
  have hnode : (endState (p.traverse v own)).node =
      (endState (p.traverse v.tallied (own, {}))).node := by
    rw [herases]
    cases p.traverse v.tallied (own, {}) <;> rfl
  refine ⟨herases, ?_⟩
  rw [hnode]
  exact hs.tallies.walkProgram p {} (own, {}) rfl

/-- A rewriter changes expressions only, so it spares every declaration. -/
lemma Rewriter.visitor_spares (r : Rewriter σ) : r.visitor.Spares := by
  constructor
  case endVisitExpr =>
    rintro ⟨e, c, own⟩
    show (r.consult.after ⟨e, c, own⟩).node = e
    unfold Rewriter.consult after
    simp only [bind_apply, node_apply, modify_apply]
    cases r.replacement? e with
    | none => rfl
    | some x =>
      simp only [request_apply]
      cases Context.request c (.replaceExpr x) <;> rfl
  all_goals
    intros
    rfl

/-- A program whose only type has a constant that is initialized with a sum. -/
def Program.withSum : Program := ⟨[.withSum]⟩

/-- The initializer of a constant is replaced at its anchor. -/
theorem Program.traverse_keeps_withSum :
    Rewriter.adding.visitor.Spares ∧
      let run := withSum.traverse Rewriter.adding.visitor []
      withSum.Kept [.field 0 0] (endState run).node ∧
        (endState run).node.types.map (·.fields.map (·.initializer?)) = [[some (.int 6)]] := by
  have hspares := Rewriter.adding.visitor_spares
  obtain ⟨-, hkept⟩ := Program.traverse_keeps hspares withSum []
  have hreached :
      (endState (withSum.traverse Rewriter.adding.visitor.tallied ([], {}))).own.2.reached =
        [.field 0 0] := by decide +kernel
  rw [hreached] at hkept
  exact ⟨hspares, hkept, by decide +kernel⟩

end DeclIR
