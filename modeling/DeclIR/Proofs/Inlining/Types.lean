import DeclIR.Proofs.Inlining.Reads

/-!
# Types of inlined expressions

A field is declared with a type, and the literal that its initializer spells out has a type of its
own.  Nothing compares the two, and the inliner puts the literal as it is in the place of a read.
So a read takes on the type of the literal, and no expression changes its type just when the
constants that are read have literals of their declared types (`run_keeps_types_iff`).
-/

namespace DeclIR

/-- What gives types to expressions: the types of the variables and of objects, and the rule for
each operator. -/
structure Typing where
  field : FieldId → Option Ty
  localVar : Nat → Option Ty
  parameter : Nat → Option Ty
  self : TypeId → Option Ty
  binary : BinaryOp → Option Ty → Option Ty → Option Ty

namespace Expr

/-- The type of an expression, if it has one. -/
def type? (Γ : Typing) : Expr → Option Ty
  | .literal _ v => some v.type
  | .staticField _ f => Γ.field f
  | .instanceField _ f _ => Γ.field f
  | .localVar _ i => Γ.localVar i
  | .parameter _ i => Γ.parameter i
  | .self _ id => Γ.self id
  | .binary _ op lhs rhs => Γ.binary op (lhs.type? Γ) (rhs.type? Γ)

variable {constant? : FieldId → Option Literal} {e x : Expr} {f : FieldId}

/-- An expression keeps its type if the literals have those of the fields that are read. -/
lemma type?_inline {Γ : Typing}
    (h : ∀ f ∈ e.reads, ∀ v, constant? f = some v → Γ.field f = some v.type) :
    (e.inline constant?).type? Γ = e.type? Γ := by
  induction e with
  | staticField i f =>
    rw [inline]
    cases hv : constant? f with
    | none => rfl
    | some v => exact (h f List.mem_cons_self v hv).symm
  | binary i op lhs rhs ihl ihr =>
    have hlhs := ihl fun f hf => h f (List.mem_append_left _ hf)
    have hrhs := ihr fun f hf => h f (List.mem_append_right _ hf)
    rw [inline, type?, type?, hlhs, hrhs]
  | _ => rfl

/-! ## Reads and the places they stand at -/

/-- An expression reads what its operands read. -/
lemma mem_reads_of_mem_operands (hx : x ∈ e.operands) (hf : f ∈ x.reads) : f ∈ e.reads := by
  cases e with
  | instanceField i g receiver => rwa [List.mem_singleton.mp hx] at hf
  | binary i op lhs rhs =>
    simp only [operands, List.mem_cons, List.not_mem_nil, or_false] at hx
    rcases hx with rfl | rfl
    · exact List.mem_append_left _ hf
    · exact List.mem_append_right _ hf
  | _ => cases hx

/-- What a part reads is read by the whole. -/
lemma mem_reads_of_at? {path : List Nat} (hx : e.at? path = some x) (hf : f ∈ x.reads) :
    f ∈ e.reads := by
  induction path generalizing e with
  | nil =>
    cases hx
    exact hf
  | cons i path ih =>
    obtain ⟨y, hy, hx⟩ := Option.bind_eq_some_iff.mp hx
    exact mem_reads_of_mem_operands (List.mem_of_getElem? hy) (ih hx)

/-- What is read stands somewhere in the expression. -/
lemma exists_at?_of_mem_reads (h : f ∈ e.reads) :
    ∃ path info, e.at? path = some (.staticField info f) := by
  induction e with
  | staticField i g => exact ⟨[], i, by rw [List.mem_singleton.mp h]; rfl⟩
  | instanceField i g receiver ih =>
    -- The path to a part of an operand goes through the operand.
    obtain ⟨path, info, hpath⟩ := ih h
    exact ⟨0 :: path, info, hpath⟩
  | binary i op lhs rhs ihl ihr =>
    rcases List.mem_append.mp h with h | h
    · obtain ⟨path, info, hpath⟩ := ihl h
      exact ⟨0 :: path, info, hpath⟩
    · obtain ⟨path, info, hpath⟩ := ihr h
      exact ⟨1 :: path, info, hpath⟩
  | _ => cases h

end Expr

namespace DeclaredType

variable {t : DeclaredType}

/-- The part at a path of one of the walked expressions. -/
def partAt? (t : DeclaredType) (k : Nat) (path : List Nat) : Option Expr :=
  t.walked[k]?.bind (Expr.at? path)

/-- A part of an inlined expression is the part from before, inlined. -/
lemma partAt?_inlined (t : DeclaredType) (k : Nat) (path : List Nat) :
    t.inlined.partAt? k path = (t.partAt? k path).map (Expr.inline t.constant?) := by
  rw [partAt?, partAt?, walked_inlined, List.getElem?_map]
  cases t.walked[k]? with
  | none => rfl
  | some e => exact Expr.at?_inline path e

/-- Each read of a type is a part of one of its walked expressions. -/
lemma exists_partAt?_of_mem_reads {f : FieldId} (h : f ∈ t.reads) :
    ∃ k path info, t.partAt? k path = some (.staticField info f) := by
  obtain ⟨e, he, hf⟩ := List.mem_flatMap.mp h
  obtain ⟨k, hk⟩ := List.mem_iff_getElem?.mp he
  obtain ⟨path, info, hpath⟩ := Expr.exists_at?_of_mem_reads hf
  exact ⟨k, path, info, by rw [partAt?, hk, Option.bind_some, hpath]⟩

/-- What a part reads is read by the type. -/
lemma mem_reads_of_partAt? {k : Nat} {path : List Nat} {x : Expr} {f : FieldId}
    (hx : t.partAt? k path = some x) (hf : f ∈ x.reads) : f ∈ t.reads := by
  obtain ⟨e, he, hx⟩ := Option.bind_eq_some_iff.mp hx
  exact List.mem_flatMap.mpr ⟨e, List.mem_of_getElem? he, Expr.mem_reads_of_at? hx hf⟩

end DeclaredType

/-- The fields of a type have the types they are declared with. -/
def Typing.Fits (Γ : Typing) (t : DeclaredType) : Prop :=
  ∀ f x, t.field? f = some x → Γ.field f = some x.type

/-- The pass leaves the types that fields are declared with. -/
lemma Typing.Fits.inlined {Γ : Typing} {t : DeclaredType} (h : Γ.Fits t) : Γ.Fits t.inlined := by
  intro f x hx
  rw [DeclaredType.field?_inlined, Option.map_eq_some_iff] at hx
  obtain ⟨y, hy, rfl⟩ := hx
  rw [h f y hy]
  split <;> rfl

/-- The constants that are read have literals of the types that they are declared with. -/
def DeclaredType.ReadsAsDeclared (t : DeclaredType) : Prop :=
  ∀ f ∈ t.reads, ∀ x v, t.field? f = some x → t.constant? f = some v → v.type = x.type

/-- In a run without failure the static reads of a constant become its literal, whatever its
declared type is, and nothing else in the type changes.  All expressions keep their types just when
the literals have those of the constants that are read. -/
theorem run_keeps_types_iff (t t' : DeclaredType) (changed : Bool)
    (h : inlineConstants.run t = .ok changed t') :
    t' = t.inlined ∧
    (∀ k path info f v, t.partAt? k path = some (.staticField info f) → t.constant? f = some v →
      t'.partAt? k path = some (.literal info v)) ∧
    ∀ Γ : Typing, Γ.Fits t → Γ.Fits t' ∧
      ((∀ k path, (t'.partAt? k path).map (Expr.type? Γ) = (t.partAt? k path).map (Expr.type? Γ)) ↔
        t.ReadsAsDeclared) := by
  -- The result is known, so only what is read in the type before has to be followed.
  obtain ⟨rfl, -⟩ := DeclaredType.of_run_eq_ok h
  have hliteral : ∀ k path info f v, t.partAt? k path = some (.staticField info f) →
      t.constant? f = some v → t.inlined.partAt? k path = some (.literal info v) := by
    intro k path info f v hread hv
    rw [DeclaredType.partAt?_inlined, hread, Option.map_some]
    exact congrArg some (Expr.inline_of_read? rfl hv)
  refine ⟨rfl, hliteral, fun Γ hΓ => ⟨hΓ.inlined, fun hkept f hf x v hx hv => ?_,
    fun hreads k path => ?_⟩⟩
  · -- At the place where the constant is read, the literal stands now.
    obtain ⟨k, path, info, hread⟩ := DeclaredType.exists_partAt?_of_mem_reads hf
    have htype := hkept k path
    rw [hliteral k path info f v hread hv, hread, Option.map_some, Option.map_some, Expr.type?,
      Expr.type?, hΓ f x hx] at htype
    exact Option.some.inj (Option.some.inj htype)
  · -- Any part may hold reads, and each of them keeps its type.
    rw [DeclaredType.partAt?_inlined]
    cases hpart : t.partAt? k path with
    | none => rfl
    | some y =>
      rw [Option.map_some, Option.map_some, Option.map_some]
      refine congrArg some (Expr.type?_inline fun f hf v hv => ?_)
      obtain ⟨x, hx, -⟩ := Option.bind_eq_some_iff.mp hv
      rw [hΓ f x hx, hreads f (DeclaredType.mem_reads_of_partAt? hpart hf) x v hx hv]

/-- A class with a constant that is declared with some type and has the literal of an integer, and
with a second field of the type that is initialized from it. -/
def DeclaredType.withConstantOf (type : Ty) : DeclaredType :=
  let constant := Field.new .synthetic (.ofChar 'K') 0 type true .constant
  let reader := Field.new .synthetic (.ofChar 'v') 0 type true .plain
  ((DeclaredType.new .synthetic 0 "C" .classType none).insertField
    (constant.declare ⟨.synthetic, .literal .synthetic (.int 1)⟩)).insertField
      (reader.declare ⟨.synthetic, .staticField .synthetic ⟨0, 0⟩⟩)

lemma dangling?_withConstantOf (type : Ty) :
    (DeclaredType.withConstantOf type).dangling? = none := rfl

lemma reads_withConstantOf (type : Ty) :
    (DeclaredType.withConstantOf type).reads = [⟨0, 0⟩] := rfl

/-- An integer constant with such a literal is read as what it is declared. -/
theorem types_withConstantOf_int :
    ∃ (t' : DeclaredType) (changed : Bool),
      inlineConstants.run (.withConstantOf (.primitive .int)) = .ok changed t' ∧
        ∀ Γ : Typing, Γ.Fits (.withConstantOf (.primitive .int)) → ∀ k path,
          (t'.partAt? k path).map (Expr.type? Γ) =
            ((DeclaredType.withConstantOf (.primitive .int)).partAt? k path).map
              (Expr.type? Γ) := by
  obtain ⟨changed, hrun⟩ := exists_run_eq_ok (dangling?_withConstantOf (.primitive .int))
  obtain ⟨-, -, hkept⟩ := run_keeps_types_iff _ _ changed hrun
  refine ⟨_, changed, hrun, fun Γ hΓ => (hkept Γ hΓ).2.mpr ?_⟩
  intro f hf x v hx hv
  rw [reads_withConstantOf, List.mem_singleton] at hf
  subst hf
  cases hx
  cases hv
  rfl

/-- A constant that is declared as a long integer can be read as an integer after a run. -/
theorem not_run_keeps_declared_types :
    ¬∀ (t t' : DeclaredType) (changed : Bool), inlineConstants.run t = .ok changed t' →
      ∀ k path info f x v, t.partAt? k path = some (.staticField info f) →
        t'.partAt? k path = some (.literal info v) → t.field? f = some x → v.type = x.type := by
  intro h
  obtain ⟨changed, hrun⟩ := exists_run_eq_ok (dangling?_withConstantOf (.primitive .long))
  have htype := h _ _ changed hrun 1 [] .synthetic ⟨0, 0⟩ _ (.int 1) rfl rfl rfl
  exact absurd htype (by decide)

end DeclIR
