import DeclIR.Source.Provenance
import Mathlib.Tactic.Lemma

/-!
# Chains of call sites

Expanding at a site is an operation on chains: the chain of the copy is the chain of the node, then
the site, then the chain of the site (`sites_inlinedAt`).  A provenance is determined by its span
and the spans of its chain (`eq_iff_span_sites`), so chains compose like lists do
(`Provenance.inlinedAt_composes`).
-/

namespace DeclIR.Provenance

variable (a b c : Provenance)

/-- Each call site of the node is expanded in turn, and the new site follows with its own chain. -/
lemma expansions_inlinedAt :
    (a.inlinedAt b).expansions = a.expansions.map (·.inlinedAt b) ++ b :: b.expansions := by
  induction a with
  | original s => rfl
  | copy s site ih =>
    rw [inlinedAt_copy, expansions_copy, ih, expansions_copy, List.map_cons, List.cons_append]

/-- The call sites of a chain are those of its first part, the place of its second part, and the
call sites of that. -/
lemma sites_inlinedAt : (a.inlinedAt b).sites = a.sites ++ b.span :: b.sites := by
  have hspans : (a.expansions.map (·.inlinedAt b)).map (·.span) = a.sites := by
    rw [List.map_map]
    rfl
  rw [sites, expansions_inlinedAt, List.map_append, hspans, List.map_cons]
  rfl

/-- It does not matter in which order chains are put together. -/
lemma inlinedAt_assoc : (a.inlinedAt b).inlinedAt c = a.inlinedAt (b.inlinedAt c) := by
  induction a with
  | original s => rw [inlinedAt_original, inlinedAt_original, inlinedAt_copy]
  | copy s site ih => rw [inlinedAt_copy, inlinedAt_copy, inlinedAt_copy, ih]

variable {a b} in
/-- A provenance holds nothing but its span and the spans of its chain. -/
lemma eq_iff_span_sites : a = b ↔ a.span = b.span ∧ a.sites = b.sites := by
  constructor
  · rintro rfl
    exact ⟨rfl, rfl⟩
  · rintro ⟨hspan, hsites⟩
    induction a generalizing b with
    | original s =>
      cases b with
      | original s' => exact congrArg original hspan
      | copy s' site' => cases hsites
    | copy s site ih =>
      cases b with
      | original s' => cases hsites
      | copy s' site' =>
        obtain ⟨hhead, htail⟩ := List.cons_eq_cons.mp hsites
        rw [ih hhead htail]
        exact congrArg (copy · site') hspan

/-- Provenances compose: a copy keeps its span, and its chain is that of the node, then the site and
the chain of the site.  Three of them can be put together from either side, and span and chain tell
any two apart. -/
theorem inlinedAt_composes :
    (a.inlinedAt b).span = a.span ∧
      (a.inlinedAt b).expansions.map (·.span) =
        a.expansions.map (·.span) ++ b.span :: b.expansions.map (·.span) ∧
      (a.inlinedAt b).inlinedAt c = a.inlinedAt (b.inlinedAt c) ∧
      (a = b ↔ a.span = b.span ∧ a.expansions.map (·.span) = b.expansions.map (·.span)) :=
  ⟨span_inlinedAt a b, sites_inlinedAt a b, inlinedAt_assoc a b c, eq_iff_span_sites⟩

/-- Two call sites on either side keep their order, innermost first. -/
example (s t u : Span) (x y : Span) :
    ((copy s (copy t (original u))).inlinedAt (copy x (original y))).sites = [t, u, x, y] := rfl

end DeclIR.Provenance
