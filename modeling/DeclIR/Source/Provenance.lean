import DeclIR.Source.Span

/-!
# Provenance

Every node of a program knows where it comes from: the span it was read from and, when it is a copy
made by inlining, the site it was expanded at.  A site is itself a provenance, so the sites of a
copy form a chain, innermost first.  Expanding a copy again (`inlinedAt`) hangs its own chain on the
new site, with the chain of that site behind it.
-/

namespace DeclIR

/-- Where a node comes from. -/
inductive Provenance where
  /-- The node was read from the span. -/
  | original (span : Span)
  /-- The node is a copy of one that was read from the span, expanded at the site. -/
  | copy (span : Span) (site : Provenance)
deriving DecidableEq, Repr, Inhabited

namespace Provenance

/-- The span a node was read from. -/
def span : Provenance → Span
  | original span => span
  | copy span _ => span

/-- The provenance of nodes that no source text stands behind. -/
def synthetic : Provenance := original Span.dummy

/-- The call sites, innermost first, each with the chain of those further out. -/
def expansions : Provenance → List Provenance
  | original _ => []
  | copy _ site => site :: site.expansions

/-- The spans of the call sites, innermost first. -/
def sites (p : Provenance) : List Span := p.expansions.map (·.span)

/-- The provenance of a copy of a node, expanded at `site`.  The chain is built anew from its outer
end: the call sites the node already has are hung on `site` one by one. -/
def inlinedAt (p site : Provenance) : Provenance :=
  copy p.span (p.sites.reverse.foldl (fun outer span => copy span outer) site)

/-- Whether the node is a copy made by inlining. -/
def isInlined : Provenance → Bool
  | original _ => false
  | copy .. => true

/-- The span, then each call site in brackets. -/
def text (p : Provenance) : String :=
  p.sites.foldl (fun t s => t ++ " (inlined at " ++ s.text ++ ")") p.span.text

@[simp] theorem span_original (s : Span) : (original s).span = s := rfl

@[simp] theorem span_copy (s : Span) (site : Provenance) : (copy s site).span = s := rfl

@[simp] theorem expansions_original (s : Span) : (original s).expansions = [] := rfl

@[simp] theorem expansions_copy (s : Span) (site : Provenance) :
    (copy s site).expansions = site :: site.expansions := rfl

@[simp] theorem sites_original (s : Span) : (original s).sites = [] := rfl

@[simp] theorem sites_copy (s : Span) (site : Provenance) :
    (copy s site).sites = site.span :: site.sites := rfl

@[simp] theorem span_inlinedAt (p site : Provenance) : (p.inlinedAt site).span = p.span := rfl

@[simp] theorem inlinedAt_original (s : Span) (site : Provenance) :
    (original s).inlinedAt site = copy s site := rfl

/-- To expand a copy again is to expand the site it was expanded at. -/
@[simp] theorem inlinedAt_copy (s : Span) (inner site : Provenance) :
    (copy s inner).inlinedAt site = copy s (inner.inlinedAt site) := by
  simp only [inlinedAt, sites_copy, span_copy, List.reverse_cons, List.foldl_append,
    List.foldl_cons, List.foldl_nil]

end Provenance
end DeclIR
