import DeclIR.Proofs.Listing.Lines

/-!
# Structure of a body

What a listing shows of a body is its sketch: how the statements nest, and of each expression its
shape.  The listing determines the sketch (`Names.Legible.blockSketch_eq_of_render_eq`).  The lines
are read from the first one on.  The first line of a statement tells of which kind it is, and a
block ends where a line is indented less.
-/

namespace DeclIR.Listing

open Text

/-- What the listing of a statement shows of it. -/
inductive Sketch where
  | declare (text : String)
  | eval (expr : Shape)
  | ret (value : Option Shape)
  | branch (cond : Shape) (onTrue : List Sketch) (onFalse : Option (List Sketch))
  | block (body : List Sketch)

namespace Names

/-! ## Sketches -/

mutual

/-- What the listing of a statement shows of it. -/
def sketch (n : Names) : Stmt → Sketch
  | .declare _ slot => .declare (n.anchor slot)
  | .eval _ e => .eval (n.shape e)
  | .ret _ value => .ret (value.map n.shape)
  | .branch _ cond onTrue onFalse =>
    .branch (n.shape cond) (n.blockSketch onTrue) (n.elseSketch onFalse)
  | .block b => .block (n.blockSketch b)

/-- The sketches of a block's statements. -/
def blockSketch (n : Names) : BlockOf Stmt → List Sketch
  | ⟨_, body⟩ => n.stmtsSketch body

/-- The sketches of an alternative that may be absent. -/
def elseSketch (n : Names) : Option (BlockOf Stmt) → Option (List Sketch)
  | none => none
  | some b => some (n.blockSketch b)

/-- The sketches of some statements. -/
def stmtsSketch (n : Names) : List Stmt → List Sketch
  | [] => []
  | s :: rest => n.sketch s :: n.stmtsSketch rest

end

/-- The expressions among some events are plain. -/
def PlainAt (n : Names) (es : List Event) : Prop := ∀ e, .expr e ∈ es → n.Plain e

variable {n : Names}

/-- The expressions of two lists of events are plain just when those of both are. -/
lemma plainAt_append {es es' : List Event} :
    n.PlainAt (es ++ es') ↔ n.PlainAt es ∧ n.PlainAt es' := by
  simp only [PlainAt, List.mem_append, or_imp, forall_and]

lemma PlainAt.plain {e : Expr} {es : List Event} (h : n.PlainAt (.expr e :: es)) : n.Plain e :=
  h e List.mem_cons_self

lemma PlainAt.tail {x : Event} {es : List Event} (h : n.PlainAt (x :: es)) : n.PlainAt es :=
  fun e he => h e (List.mem_cons_of_mem _ he)

/-! ## First lines -/

/-- What the first line of a statement shows. -/
def opening (n : Names) : Stmt → Opening
  | .declare _ slot => .declare (n.anchor slot).toList.dropLast
  | .eval _ e => .eval (n.shape e)
  | .ret _ value => .ret (value.map n.shape)
  | .branch _ cond _ _ => .branch (n.shape cond)
  | .block _ => .block

/-- The lines of a statement behind its first one. -/
def inside (n : Names) (indent : Nat) : Stmt → List Line
  | .branch _ _ onTrue onFalse =>
    n.block (indent + 1) onTrue ++ n.alternative indent onFalse ++ [⟨indent, "\x7d"⟩]
  | .block b => n.block (indent + 1) b ++ [⟨indent, "\x7d"⟩]
  | _ => []

section Legible

variable (h : n.Legible)
include h

/-- An anchor is written on one line as a declaration, with a semicolon behind it. -/
lemma Legible.exists_anchor_toList_eq (slot : VarSlot) :
    ∃ cs, (n.anchor slot).toList = cs ++ [';'] ∧ Declares cs ∧ '\n' ∉ cs := by
  obtain ⟨t, ht, hdeclares, honeLine⟩ := h.exists_anchor_eq slot
  exact ⟨t.toList, by rw [ht, String.toList_append]; rfl, hdeclares, honeLine⟩

/-- An expression is written on one line. -/
lemma Legible.feed_notMem_shape (e : Expr) : '\n' ∉ (n.shape e).text := by
  rw [← n.toList_expr]
  exact h.oneLine_expr e

/-- The text of a first line is that of the opening. -/
lemma Legible.stmt_eq_cons (indent : Nat) (s : Stmt) :
    n.stmt indent s = ⟨indent, String.ofList (n.opening s).text⟩ :: n.inside indent s := by
  -- Texts are compared as lists of characters, since this is what an opening consists of.
  suffices hfirst : ∀ t : String, t.toList = (n.opening s).text →
      n.stmt indent s = ⟨indent, t⟩ :: n.inside indent s from
    hfirst _ String.toList_ofList
  rintro t ht
  cases s with
  | declare i slot =>
    obtain ⟨cs, hcs, -, -⟩ := h.exists_anchor_toList_eq slot
    have hanchor : t = n.anchor slot := by
      -- The sign behind an anchor is part of its text, and it is the last character.
      rw [← String.toList_inj, ht, opening, hcs, List.dropLast_concat]
      rfl
    rw [hanchor]
    rfl
  | eval i e =>
    have htext : t = n.expr e ++ ";" := by
      rw [← String.toList_inj, ht, String.toList_append, n.toList_expr]
      rfl
    rw [htext]
    rfl
  | ret i value =>
    cases value with
    | none =>
      have htext : t = "return;" := String.toList_inj.mp ht
      rw [htext]
      rfl
    | some e =>
      have htext : t = "return " ++ n.expr e ++ ";" := by
        rw [← String.toList_inj, ht, String.toList_append, String.toList_append, n.toList_expr]
        rfl
      rw [htext]
      rfl
  | branch i cond onTrue onFalse =>
    have htext : t = "if (" ++ n.expr cond ++ ") \x7b" := by
      rw [← String.toList_inj, ht, String.toList_append, String.toList_append, n.toList_expr]
      simp [opening, Opening.text, Opening.sign]
    rw [htext, stmt, List.cons_append, List.cons_append]
    rfl
  | block b =>
    have htext : t = "\x7b" := String.toList_inj.mp ht
    rw [htext]
    rfl

/-- The first operand of a plain expression is not the word that a return begins with. -/
lemma Legible.first_shape_ne_return {e : Expr} (he : n.Plain e) :
    (n.shape e).first ≠ .leaf "return" := by
  have hleaf {e : Expr} (he : n.Plain e) : n.shape e ≠ .leaf "return" := fun heq =>
    (leafText_of_shape h he heq).ne_return rfl
  cases e with
  | binary i op lhs rhs => exact hleaf he.1
  | instanceField i id receiver =>
    obtain ⟨f, hf⟩ := Option.isSome_iff_exists.mp he.1
    simp [shape, hf, Shape.first]
  | _ => exact hleaf he

/-- The first line of a statement has an opening that can be read back. -/
lemma Legible.readable_opening {s : Stmt} (hs : n.PlainAt s.events) : (n.opening s).Readable := by
  cases s with
  | declare i slot =>
    obtain ⟨cs, hcs, hdeclares, -⟩ := h.exists_anchor_toList_eq slot
    rw [opening, hcs, List.dropLast_concat]
    exact hdeclares
  | eval i e => exact ⟨readable_shape h hs.plain, h.first_shape_ne_return hs.plain⟩
  | ret i value =>
    cases value with
    | none => simp [opening, Opening.Readable]
    | some e => simpa [opening, Opening.Readable] using readable_shape h (PlainAt.plain hs)
  | branch i cond onTrue onFalse => exact readable_shape h (PlainAt.plain hs)
  | block b => trivial

/-- The opening of a statement is written on one line. -/
lemma Legible.feed_notMem_opening (s : Stmt) : '\n' ∉ (n.opening s).body := by
  cases s with
  | declare i slot =>
    obtain ⟨cs, hcs, -, hfeed⟩ := h.exists_anchor_toList_eq slot
    rw [opening, hcs, List.dropLast_concat]
    exact hfeed
  | eval i e => exact h.feed_notMem_shape e
  | ret i value =>
    cases value with
    | none =>
      show OneLine "return"
      decide
    | some e =>
      have hshape := h.feed_notMem_shape e
      simpa [opening, Opening.returned] using hshape
  | branch i cond onTrue onFalse =>
    have hshape := h.feed_notMem_shape cond
    simpa [opening] using hshape
  | block b => exact List.not_mem_nil

/-- The first line of a statement is proper. -/
lemma Legible.proper_first (indent : Nat) {s : Stmt} (hs : n.PlainAt s.events) :
    Line.Proper ⟨indent, String.ofList (n.opening s).text⟩ where
  feed := by
    have hbody := h.feed_notMem_opening s
    have hsign := (n.opening s).sign_ne_feed
    simpa [Opening.text, hsign.symm] using hbody
  opens := by
    rw [String.toList_ofList]
    exact (h.readable_opening hs).ends_text

end Legible

/-! ## Lines of a body -/

/-- A text on one line that does not begin with a blank makes a proper line. -/
lemma proper_of_toList_eq (indent : Nat) {t : String} {c : Char} {cs : List Char}
    (ht : t.toList = c :: cs) (hfeed : OneLine t) (hc : c ≠ ' ') : Line.Proper ⟨indent, t⟩ where
  feed := hfeed
  opens := by
    rw [ht]
    exact ends_cons (decide_eq_false hc)

lemma proper_close (indent : Nat) : Line.Proper ⟨indent, "\x7d"⟩ :=
  proper_of_toList_eq indent rfl (by decide) (by decide)

mutual

/-- The lines inside of a statement are proper, by recursion over the nested blocks. -/
lemma Legible.proper_inside (h : n.Legible) (indent : Nat) :
    ∀ s : Stmt, n.PlainAt s.events → ∀ l ∈ n.inside indent s, l.Proper
  | .declare _ _, _, l, hl => by cases hl
  | .eval _ _, _, l, hl => by cases hl
  | .ret _ _, _, l, hl => by cases hl
  | .branch _ cond onTrue onFalse, hs, l, hl => by
    obtain ⟨htrue, hfalse⟩ := plainAt_append.mp (PlainAt.tail hs)
    rw [inside, List.mem_append, List.mem_append, List.mem_singleton] at hl
    rcases hl with (hl | hl) | rfl
    · exact h.proper_block (indent + 1) onTrue htrue l hl
    · exact h.proper_alternative indent onFalse hfalse l hl
    · exact proper_close indent
  | .block b, hs, l, hl => by
    rw [inside, List.mem_append, List.mem_singleton] at hl
    rcases hl with hl | rfl
    · exact h.proper_block (indent + 1) b hs l hl
    · exact proper_close indent

lemma Legible.proper_block (h : n.Legible) (indent : Nat) :
    ∀ b : BlockOf Stmt, n.PlainAt (Block.events b) → ∀ l ∈ n.block indent b, l.Proper
  | ⟨_, body⟩, hb => h.proper_stmts indent body hb

lemma Legible.proper_alternative (h : n.Legible) (indent : Nat) :
    ∀ b : Option (BlockOf Stmt), n.PlainAt (elseEvents b) →
      ∀ l ∈ n.alternative indent b, l.Proper
  | none, _, l, hl => by cases hl
  | some b, hb, l, hl => by
    rcases List.mem_cons.mp hl with rfl | hl
    · exact proper_of_toList_eq indent rfl (by decide) (by decide)
    · exact h.proper_block (indent + 1) b hb l hl

lemma Legible.proper_stmts (h : n.Legible) (indent : Nat) :
    ∀ body : List Stmt, n.PlainAt (stmtsEvents body) → ∀ l ∈ n.stmts indent body, l.Proper
  | [], _, l, hl => by cases hl
  | s :: rest, hbody, l, hl => by
    obtain ⟨hs, hrest⟩ := plainAt_append.mp hbody
    rw [stmts, h.stmt_eq_cons, List.mem_append, List.mem_cons] at hl
    rcases hl with (rfl | hl) | hl
    · exact h.proper_first indent hs
    · exact h.proper_inside indent s hs l hl
    · exact h.proper_stmts indent rest hrest l hl

end

/-! ## Reading the lines -/

/-- Lines of which the first one, if there is any, is indented less. -/
def Outer (indent : Nat) (ls : List Line) : Prop := ∀ l ∈ ls.head?, l.indent < indent

/-- A line further out ends a block, whatever follows. -/
lemma outer_cons {indent : Nat} {l : Line} (h : l.indent < indent) (ls : List Line) :
    Outer indent (l :: ls) := by
  intro l' hl'
  rw [List.head?_cons, Option.mem_some_iff] at hl'
  rwa [← hl']

variable {ls ls' : List Line}

/-- The lines of a statement are no outer ones. -/
lemma Legible.stmt_append_ne (h : n.Legible) {indent : Nat} (hls : Outer indent ls) (s : Stmt)
    (ls' : List Line) : n.stmt indent s ++ ls' ≠ ls := by
  rintro rfl
  rw [h.stmt_eq_cons] at hls
  exact absurd (hls _ rfl) (Nat.lt_irrefl indent)

/-- Statements that are written the same way have the same opening, and go on the same way. -/
lemma Legible.opening_eq (h : n.Legible) {indent : Nat} {s s' : Stmt} (hs : n.PlainAt s.events)
    (hs' : n.PlainAt s'.events) (heq : n.stmt indent s ++ ls = n.stmt indent s' ++ ls') :
    n.opening s = n.opening s' ∧ n.inside indent s ++ ls = n.inside indent s' ++ ls' := by
  rw [h.stmt_eq_cons, h.stmt_eq_cons] at heq
  obtain ⟨hfirst, hinside⟩ := List.cons.inj heq
  have htext := congrArg String.toList (congrArg Line.text hfirst)
  rw [String.toList_ofList, String.toList_ofList] at htext
  exact ⟨Opening.text_inj (h.readable_opening hs) (h.readable_opening hs') htext, hinside⟩

/-- An anchor is told from another one without its semicolon. -/
lemma Legible.anchor_eq (h : n.Legible) {slot slot' : VarSlot}
    (heq : (n.anchor slot).toList.dropLast = (n.anchor slot').toList.dropLast) :
    n.anchor slot = n.anchor slot' := by
  obtain ⟨cs, hcs, -, -⟩ := h.exists_anchor_toList_eq slot
  obtain ⟨cs', hcs', -, -⟩ := h.exists_anchor_toList_eq slot'
  rw [hcs, hcs', List.dropLast_concat, List.dropLast_concat] at heq
  rw [← String.toList_inj, hcs, hcs', heq]

-- The lines behind a statement or a block are kept arbitrary, and so the induction goes through
-- without counting the lines that a statement takes.
mutual

/-- Statements with the same opening and the same lines inside have the same sketch, and what
follows is the same. -/
lemma Legible.inside_append_inj (h : n.Legible) (indent : Nat) {ls ls' : List Line} :
    ∀ s s' : Stmt, n.PlainAt s.events → n.PlainAt s'.events → n.opening s = n.opening s' →
      n.inside indent s ++ ls = n.inside indent s' ++ ls' → n.sketch s = n.sketch s' ∧ ls = ls'
  | .declare _ slot, s', _, _, hopening, heq => by
    cases s' with
    | declare i' slot' =>
      exact ⟨congrArg Sketch.declare (h.anchor_eq (Opening.declare.inj hopening)), heq⟩
    | _ => cases hopening
  | .eval _ e, s', _, _, hopening, heq => by
    cases s' with
    | eval i' e' => exact ⟨congrArg Sketch.eval (Opening.eval.inj hopening), heq⟩
    | _ => cases hopening
  | .ret _ value, s', _, _, hopening, heq => by
    cases s' with
    | ret i' value' => exact ⟨congrArg Sketch.ret (Opening.ret.inj hopening), heq⟩
    | _ => cases hopening
  | .branch _ cond onTrue onFalse, s', hs, hs', hopening, heq => by
    cases s' with
    | branch i' cond' onTrue' onFalse' =>
      obtain ⟨htrue, hfalse⟩ := plainAt_append.mp (PlainAt.tail hs)
      obtain ⟨htrue', hfalse'⟩ := plainAt_append.mp (PlainAt.tail hs')
      simp only [inside, List.append_assoc, List.singleton_append] at heq
      -- What comes behind the first block is less indented, with an alternative and without one.
      have houter (b : Option (BlockOf Stmt)) (ls : List Line) :
          Outer (indent + 1) (n.alternative indent b ++ ⟨indent, "\x7d"⟩ :: ls) := by
        cases b with
        | none => exact outer_cons (Nat.lt_succ_self indent) _
        | some b => exact outer_cons (Nat.lt_succ_self indent) _
      obtain ⟨honTrue, hbehind⟩ := h.block_append_inj (indent + 1) onTrue onTrue' htrue htrue'
        (houter onFalse _) (houter onFalse' _) heq
      obtain ⟨honFalse, rfl⟩ := h.alternative_append_inj indent onFalse onFalse' hfalse hfalse'
        hbehind
      rw [sketch, sketch, Opening.branch.inj hopening, honTrue, honFalse]
      exact ⟨rfl, rfl⟩
    | _ => cases hopening
  | .block b, s', hs, hs', hopening, heq => by
    cases s' with
    | block b' =>
      simp only [inside, List.append_assoc, List.singleton_append] at heq
      -- The closing line is less indented than the lines of the block.
      have houter (ls : List Line) : Outer (indent + 1) (⟨indent, "\x7d"⟩ :: ls) :=
        outer_cons (Nat.lt_succ_self indent) _
      obtain ⟨hblock, hbehind⟩ := h.block_append_inj (indent + 1) b b' hs hs' (houter _)
        (houter _) heq
      rw [sketch, sketch, hblock]
      exact ⟨rfl, (List.cons.inj hbehind).2⟩
    | _ => cases hopening

lemma Legible.block_append_inj (h : n.Legible) (indent : Nat) {ls ls' : List Line} :
    ∀ b b' : BlockOf Stmt, n.PlainAt (Block.events b) → n.PlainAt (Block.events b') →
      Outer indent ls → Outer indent ls' → n.block indent b ++ ls = n.block indent b' ++ ls' →
        n.blockSketch b = n.blockSketch b' ∧ ls = ls'
  | ⟨_, body⟩, ⟨_, body'⟩, hb, hb', hls, hls', heq =>
    h.stmts_append_inj indent body body' hb hb' hls hls' heq

lemma Legible.alternative_append_inj (h : n.Legible) (indent : Nat) {ls ls' : List Line} :
    ∀ b b' : Option (BlockOf Stmt), n.PlainAt (elseEvents b) → n.PlainAt (elseEvents b') →
      n.alternative indent b ++ ⟨indent, "\x7d"⟩ :: ls =
          n.alternative indent b' ++ ⟨indent, "\x7d"⟩ :: ls' →
        n.elseSketch b = n.elseSketch b' ∧ ls = ls'
  | none, none, _, _, heq => ⟨rfl, (List.cons.inj heq).2⟩
  | none, some b', _, _, heq => absurd (List.cons.inj heq).1 (by simp)
  | some b, none, _, _, heq => absurd (List.cons.inj heq).1 (by simp)
  | some b, some b', hb, hb', heq => by
    have houter (ls : List Line) : Outer (indent + 1) (⟨indent, "\x7d"⟩ :: ls) :=
      outer_cons (Nat.lt_succ_self indent) _
    obtain ⟨hblock, hbehind⟩ := h.block_append_inj (indent + 1) b b' hb hb' (houter _) (houter _)
      (List.cons.inj heq).2
    exact ⟨congrArg some hblock, (List.cons.inj hbehind).2⟩

lemma Legible.stmts_append_inj (h : n.Legible) (indent : Nat) {ls ls' : List Line} :
    ∀ body body' : List Stmt, n.PlainAt (stmtsEvents body) → n.PlainAt (stmtsEvents body') →
      Outer indent ls → Outer indent ls' → n.stmts indent body ++ ls = n.stmts indent body' ++ ls' →
        n.stmtsSketch body = n.stmtsSketch body' ∧ ls = ls'
  | [], [], _, _, _, _, heq => ⟨rfl, heq⟩
  | [], s' :: rest', _, _, hls, _, heq => by
    rw [stmts, stmts, List.nil_append, List.append_assoc] at heq
    exact absurd heq.symm (h.stmt_append_ne hls s' _)
  | s :: rest, [], _, _, _, hls', heq => by
    rw [stmts, stmts, List.nil_append, List.append_assoc] at heq
    exact absurd heq (h.stmt_append_ne hls' s _)
  | s :: rest, s' :: rest', hbody, hbody', hls, hls', heq => by
    obtain ⟨hs, hrest⟩ := plainAt_append.mp hbody
    obtain ⟨hs', hrest'⟩ := plainAt_append.mp hbody'
    rw [stmts, stmts, List.append_assoc, List.append_assoc] at heq
    obtain ⟨hopening, hinside⟩ := h.opening_eq hs hs' heq
    obtain ⟨hsketch, hbehind⟩ := h.inside_append_inj indent s s' hs hs' hopening hinside
    obtain ⟨hsketches, rfl⟩ := h.stmts_append_inj indent rest rest' hrest hrest' hls hls' hbehind
    rw [stmtsSketch, stmtsSketch, hsketch, hsketches]
    exact ⟨rfl, rfl⟩

end

/-- Bodies that are listed alike have the same structure: the same statements, nested in the same
way, and in them expressions of the same shapes. -/
theorem Legible.blockSketch_eq_of_render_eq (h : n.Legible) {indent : Nat} {b b' : Block}
    (hb : n.PlainAt (Block.events b)) (hb' : n.PlainAt (Block.events b'))
    (heq : render (n.block indent b) = render (n.block indent b')) :
    n.blockSketch b = n.blockSketch b' := by
  have hlines := render_inj (h.proper_block indent b hb) (h.proper_block indent b' hb') heq
  have hnone : Outer indent [] := by simp [Outer]
  have hsame : n.block indent b ++ [] = n.block indent b' ++ [] := by rw [hlines]
  exact (h.block_append_inj indent b b' hb hb' hnone hnone hsame).1

/-- A body that tests and changes what an expression denotes. -/
def stepping (x : Expr) : Block :=
  let below : Expr := .binary .synthetic .lt x (.literal .synthetic (.int 0))
  let grown : Expr := .binary .synthetic .add x (.literal .synthetic (.int 1))
  let change : Expr := .binary .synthetic .assign x (.binary .synthetic .mul grown x)
  ⟨.synthetic, [.declare .synthetic (.localVar 0),
    .branch .synthetic below ⟨.synthetic, [.eval .synthetic change]⟩
      (some ⟨.synthetic, [.block ⟨.synthetic, [.ret .synthetic none]⟩]⟩),
    .ret .synthetic (some x)]⟩

/-- The expressions of this body are plain if `x` is. -/
lemma plainAt_stepping {x : Expr} (hx : shadowing.Plain x) :
    shadowing.PlainAt (Block.events (stepping x)) := by
  intro e he
  simp only [stepping, Block.events, stmtsEvents, Stmt.events, elseEvents, List.append_nil,
    List.cons_append, List.nil_append, List.mem_cons, reduceCtorEq, Event.expr.injEq,
    List.not_mem_nil, or_false, false_or] at he
  rcases he with rfl | rfl | rfl
  · exact ⟨hx, rfl⟩
  · exact ⟨hx, ⟨hx, rfl⟩, hx⟩
  · exact hx

/-- Bodies that read a field and a local variable of one name are written the same way, and have the
same sketch. -/
theorem blockSketch_stepping :
    render (shadowing.block 2 (stepping (.staticField .synthetic ⟨0, 0⟩))) =
        render (shadowing.block 2 (stepping (.localVar .synthetic 0))) ∧
      shadowing.blockSketch (stepping (.staticField .synthetic ⟨0, 0⟩)) =
        shadowing.blockSketch (stepping (.localVar .synthetic 0)) := by
  have hsame : render (shadowing.block 2 (stepping (.staticField .synthetic ⟨0, 0⟩))) =
      render (shadowing.block 2 (stepping (.localVar .synthetic 0))) := by decide +kernel
  have hstatic : shadowing.Plain (.staticField .synthetic ⟨0, 0⟩) := ⟨rfl, rfl⟩
  have hlocal : shadowing.Plain (.localVar .synthetic 0) := rfl
  exact ⟨hsame, legible_shadowing.blockSketch_eq_of_render_eq (plainAt_stepping hstatic)
    (plainAt_stepping hlocal) hsame⟩

end Names
end DeclIR.Listing
