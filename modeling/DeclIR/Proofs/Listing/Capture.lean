import DeclIR.Proofs.Code.Walked
import DeclIR.Proofs.Listing.Legibility

/-!
# Capture of names

In the listing of a method the fields that are read through their own type stand there by their bare
names, and so do the local variables and the parameters.  Read as source code, such a name denotes a
local variable or a parameter of that name before it denotes a field (`Names.denoted?`).  So a field
is captured by a variable of its name, and that is the only way in which a name denotes something
else than what the expression refers to (`Names.Distinct.denoted?_expr_iff`).
-/

namespace DeclIR

/-! ## Positions by name -/

/-- In a list of distinct names a name is found where it stands. -/
lemma findIdx?_eq_some_of_nodup {α : Type} {name : α → String} {l : List α} {i : Nat} {a : α}
    (h : (l.map name).Nodup) (ha : l[i]? = some a) :
    l.findIdx? (name · = name a) = some i := by
  obtain ⟨hlt, rfl⟩ := List.getElem?_eq_some_iff.mp ha
  refine List.findIdx?_eq_some_iff_getElem.mpr ⟨hlt, decide_eq_true rfl, fun j hj => ?_⟩
  have hlength : i < (l.map name).length := by rwa [List.length_map]
  have hne := List.pairwise_iff_getElem.mp h j i (by omega) hlength hj
  simpa using hne

/-- A name that is not in the list is found nowhere. -/
lemma findIdx?_eq_none_of_notMem {α : Type} {name : α → String} {l : List α} {s : String}
    (h : s ∉ l.map name) : l.findIdx? (name · = s) = none := by
  simpa using h

namespace Listing

/-- A variable that is shown by its bare name. -/
inductive Referent where
  /-- A field of the type that is shown. -/
  | field (index : Nat)
  | localVar (index : Nat)
  | parameter (index : Nat)
deriving DecidableEq, Repr

/-- Whether the variable is a field. -/
def Referent.isField : Referent → Bool
  | field _ => true
  | _ => false

namespace Names

/-- The local variables of the method. -/
def locals (n : Names) : List Variable := n.within.elim [] (·.locals)

/-- The parameters of the method. -/
def parameters (n : Names) : List Variable := n.within.elim [] (·.parameters)

/-- The names of the local variables and the parameters of the method. -/
def variableNames (n : Names) : List String := (n.locals ++ n.parameters).map (·.name.text)

/-- What an expression refers to, if it is shown as a bare name. -/
def referent? (n : Names) : Expr → Option Referent
  | .staticField _ id =>
    if id.owner = n.owner then (n.program.field? id).map fun _ => .field id.index else none
  | .localVar _ i => (n.localVar? i).map fun _ => .localVar i
  | .parameter _ i => (n.parameter? i).map fun _ => .parameter i
  | _ => none

/-- The field of this name in the type that is shown. -/
def fieldNamed? (n : Names) (name : String) : Option Referent :=
  ((n.program.type? n.owner).bind (·.fieldIndex? name)).map .field

/-- What a bare name denotes in source code: a local variable or parameter, and only if there is
none of the name, a field. -/
def denoted? (n : Names) (name : String) : Option Referent :=
  ((n.locals.findIdx? (·.name.text = name)).map .localVar).or <|
    ((n.parameters.findIdx? (·.name.text = name)).map .parameter).or (n.fieldNamed? name)

/-- Neither two fields of the type nor two variables of the method have the same name. -/
structure Distinct (n : Names) : Prop where
  fields : ∀ t ∈ n.program.type? n.owner, (t.fields.map (·.name.text)).Nodup
  names : n.variableNames.Nodup

variable {n : Names}

lemma localVar?_eq_getElem? (i : Nat) : n.localVar? i = n.locals[i]? := by
  rw [localVar?, locals]
  cases n.within <;> rfl

lemma parameter?_eq_getElem? (i : Nat) : n.parameter? i = n.parameters[i]? := by
  rw [parameter?, parameters]
  cases n.within <;> rfl

/-! ## References -/

/-- A variable that is shown by its bare name, and the name. -/
inductive Refers (n : Names) : Referent → String → Prop
  | field {t : DeclaredType} {k : Nat} {f : Field} (ht : n.program.type? n.owner = some t)
      (hf : t.fields[k]? = some f) : Refers n (.field k) f.name.text
  | localVar {i : Nat} {v : Variable} (hv : n.locals[i]? = some v) :
      Refers n (.localVar i) v.name.text
  | parameter {i : Nat} {v : Variable} (hv : n.parameters[i]? = some v) :
      Refers n (.parameter i) v.name.text

/-- An expression that refers to something is written by a name of it. -/
lemma refers_expr {e : Expr} {r : Referent} (he : n.referent? e = some r) :
    n.Refers r (n.expr e) := by
  cases e with
  | staticField i id =>
    obtain ⟨howner, hr⟩ := Option.ite_none_right_eq_some.mp he
    obtain ⟨f, hf, rfl⟩ := Option.map_eq_some_iff.mp hr
    obtain ⟨t, ht, hfield⟩ := Option.bind_eq_some_iff.mp hf
    rw [expr, hf]
    simp only [staticField, if_pos howner]
    exact .field (howner ▸ ht) (Option.ite_none_right_eq_some.mp hfield).2
  | localVar i k =>
    obtain ⟨v, hv, rfl⟩ := Option.map_eq_some_iff.mp he
    rw [expr, hv]
    exact .localVar (localVar?_eq_getElem? k ▸ hv)
  | parameter i k =>
    obtain ⟨v, hv, rfl⟩ := Option.map_eq_some_iff.mp he
    rw [expr, hv]
    exact .parameter (parameter?_eq_getElem? k ▸ hv)
  | _ => cases he

namespace Distinct

variable (h : n.Distinct) {r : Referent} {name : String}
include h

/-- A local variable or parameter is what its name denotes. -/
lemma denoted?_of_variable (hr : n.Refers r name) (hfield : r.isField = false) :
    n.denoted? name = some r := by
  have hnames := h.names
  rw [variableNames, List.map_append, List.nodup_append] at hnames
  obtain ⟨hlocals, hparameters, hdisjoint⟩ := hnames
  cases hr with
  | field ht hf => cases hfield
  | localVar hv =>
    rw [denoted?, findIdx?_eq_some_of_nodup hlocals hv]
    rfl
  | @parameter i v hv =>
    have hmem : v.name.text ∈ n.parameters.map (·.name.text) :=
      List.mem_map_of_mem (List.mem_of_getElem? hv)
    have hnot : v.name.text ∉ n.locals.map (·.name.text) := fun hlocal =>
      hdisjoint _ hlocal _ hmem rfl
    rw [denoted?, findIdx?_eq_none_of_notMem hnot, findIdx?_eq_some_of_nodup hparameters hv]
    rfl

/-- The name of a field leads back to it among the fields. -/
lemma fieldNamed?_of_field (hr : n.Refers r name) (hfield : r.isField = true) :
    n.fieldNamed? name = some r := by
  cases hr with
  | @field t k f ht hf =>
    have hindex : t.fieldIndex? f.name.text = some k :=
      findIdx?_eq_some_of_nodup (h.fields t ht) hf
    rw [fieldNamed?, ht, Option.bind_some, hindex]
    rfl
  | _ => cases hfield

/-- A field is what its name denotes if no local variable or parameter has the name. -/
lemma denoted?_of_field (hr : n.Refers r name) (hfield : r.isField = true)
    (hname : name ∉ n.variableNames) : n.denoted? name = some r := by
  rw [variableNames, List.map_append, List.mem_append, not_or] at hname
  rw [denoted?, findIdx?_eq_none_of_notMem hname.1, findIdx?_eq_none_of_notMem hname.2,
    h.fieldNamed?_of_field hr hfield]
  rfl

/-- A name of a local variable or parameter does not denote a field. -/
lemma notMem_of_denoted? {k : Nat} (hname : n.denoted? name = some (.field k)) :
    name ∉ n.variableNames := by
  intro hmem
  obtain ⟨v, hv, rfl⟩ := List.mem_map.mp hmem
  have hother : ∃ r, r.isField = false ∧ n.Refers r v.name.text := by
    rcases List.mem_append.mp hv with hv | hv
    · obtain ⟨i, hi⟩ := List.mem_iff_getElem?.mp hv
      exact ⟨_, rfl, .localVar hi⟩
    · obtain ⟨i, hi⟩ := List.mem_iff_getElem?.mp hv
      exact ⟨_, rfl, .parameter hi⟩
  obtain ⟨r, hr, hrefers⟩ := hother
  rw [h.denoted?_of_variable hrefers hr] at hname
  cases hname
  cases hr

/-- The name of a field or of a variable says which one it is, if it is known that it is a field or
that it is none. -/
lemma refers_inj {r' : Referent} (hr : n.Refers r name) (hr' : n.Refers r' name)
    (hfield : r.isField = r'.isField) : r = r' := by
  cases hvariable : r.isField with
  | false =>
    have hvariable' : r'.isField = false := hfield.symm.trans hvariable
    exact Option.some.inj
      ((h.denoted?_of_variable hr hvariable).symm.trans (h.denoted?_of_variable hr' hvariable'))
  | true =>
    have hvariable' : r'.isField = true := hfield.symm.trans hvariable
    exact Option.some.inj
      ((h.fieldNamed?_of_field hr hvariable).symm.trans (h.fieldNamed?_of_field hr' hvariable'))

/-- A bare name denotes what the expression refers to, unless that is a field and a local variable
or parameter has the name.  Two things have the same name only if one is a field and the other is
not. -/
theorem denoted?_expr_iff {e : Expr} (he : n.referent? e = some r) :
    (n.denoted? (n.expr e) = some r ↔ (r.isField → n.expr e ∉ n.variableNames)) ∧
      ∀ e' r', n.referent? e' = some r' → n.expr e = n.expr e' → r ≠ r' →
        r.isField ≠ r'.isField := by
  have hrefers := refers_expr he
  refine ⟨⟨fun hdenoted hfield => ?_, fun hname => ?_⟩, fun e' r' he' heq hne hsame => ?_⟩
  · cases r with
    | field k => exact h.notMem_of_denoted? hdenoted
    | _ => cases hfield
  · cases hfield : r.isField with
    | false => exact h.denoted?_of_variable hrefers hfield
    | true => exact h.denoted?_of_field hrefers hfield (hname hfield)
  · have hrefers' := refers_expr he'
    rw [← heq] at hrefers'
    exact hne (h.refers_inj hrefers hrefers' hsame)

end Distinct

/-- No two fields of this program have one name, nor have two of its variables. -/
lemma distinct_shadowing : shadowing.Distinct := by
  constructor
  · intro t ht
    obtain rfl := Option.some.inj ht
    decide
  · decide

/-- The name that both the field and the local variable have denotes the local variable. -/
theorem denoted?_shadowing :
    shadowing.denoted? (shadowing.expr (.localVar .synthetic 0)) = some (.localVar 0) ∧
      shadowing.denoted? (shadowing.expr (.staticField .synthetic ⟨0, 0⟩)) ≠ some (.field 0) := by
  have hlocal : shadowing.referent? (.localVar .synthetic 0) = some (.localVar 0) := rfl
  have hfield : shadowing.referent? (.staticField .synthetic ⟨0, 0⟩) = some (.field 0) := rfl
  have htaken : shadowing.expr (.staticField .synthetic ⟨0, 0⟩) ∈ shadowing.variableNames :=
    List.mem_cons_self
  constructor
  · exact (distinct_shadowing.denoted?_expr_iff hlocal).1.mpr fun hvariable => by cases hvariable
  · intro hdenoted
    exact (distinct_shadowing.denoted?_expr_iff hfield).1.mp hdenoted rfl htaken

/-- A field can have the text of a local variable in the same code, though fields have distinct
names among themselves, and so have variables. -/
theorem not_expr_ne_of_isField_ne :
    ¬ ∀ (p : Program) (t : DeclaredType) (m : Method), p.type? t.id = some t → m ∈ t.methods →
      Legible ⟨p, t.id, some m⟩ → Distinct ⟨p, t.id, some m⟩ →
        ∀ x ∈ m.walked t.fields, ∀ path path' e e' r r', x.at? path = some e →
          x.at? path' = some e' → referent? ⟨p, t.id, some m⟩ e = some r →
            referent? ⟨p, t.id, some m⟩ e' = some r' → r.isField ≠ r'.isField →
              expr ⟨p, t.id, some m⟩ e ≠ expr ⟨p, t.id, some m⟩ e' := by
  intro hne
  have hmem : shadowingMethod ∈ shadowedType.methods :=
    List.mem_append_right _ List.mem_cons_self
  exact hne ⟨[shadowedType]⟩ shadowedType shadowingMethod rfl hmem legible_shadowing
    distinct_shadowing _ List.mem_cons_self [0] [1] (.staticField .synthetic ⟨0, 0⟩)
    (.localVar .synthetic 0) (.field 0) (.localVar 0) rfl rfl rfl rfl (by decide) rfl

end Names
end Listing
end DeclIR
