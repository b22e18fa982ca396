import DeclIR.Fault
import DeclIR.Proofs.Provenance.Chains
import DeclIR.Proofs.Text.Delimiting

/-!
# A provenance written out

A provenance is shown in two ways: on one line, with each call site in brackets behind the span, and
in the diagnostic of a fault, with one note for each call site.  Both list the same spans in the
same order, and neither loses anything: a line can be read back (`Provenance.text_inj`), so a
diagnostic can be, too (`Fault.renderings_agree`).
-/

namespace DeclIR

open Text

/-! ## Spans -/

namespace Span

/-- A span is written by three numbers, with a colon and two points between them. -/
lemma toList_text (s : Span) :
    s.text.toList = (toString s.file).toList ++ ':' :: ((toString s.start).toList ++
      '.' :: '.' :: (toString s.stop).toList) := by
  have hcolon : ":".toList = [':'] := rfl
  have hdots : "..".toList = ['.', '.'] := rfl
  simp only [text, String.toList_append, List.append_assoc, hcolon, hdots, List.cons_append,
    List.nil_append]

/-- A span is told from what is behind it, unless that goes on with a digit. -/
lemma text_append_inj {s s' : Span} {ds ds' : List Char} (hds : Ends isNumeral ds)
    (hds' : Ends isNumeral ds') (h : s.text.toList ++ ds = s'.text.toList ++ ds') :
    s = s' ∧ ds = ds' := by
  simp only [toList_text, List.append_assoc, List.cons_append] at h
  -- The three numbers are read off from left to right; a colon and a point end the first two.
  obtain ⟨hfile, hcolon⟩ := nat_append_inj (ends_cons (by decide)) (ends_cons (by decide)) h
  obtain ⟨hstart, hdots⟩ := nat_append_inj (ends_cons (by decide)) (ends_cons (by decide))
    (List.cons.inj hcolon).2
  obtain ⟨hstop, hrest⟩ := nat_append_inj hds hds' (List.cons.inj (List.cons.inj hdots).2).2
  cases s
  cases s'
  subst hfile hstart hstop
  exact ⟨rfl, hrest⟩

end Span

/-! ## Chains on one line -/

namespace Provenance

variable {p q : Provenance} {sites sites' : List Span}

/-- A call site in brackets, behind a blank. -/
def bracketed (s : Span) : String := " (inlined at " ++ s.text ++ ")"

lemma toList_bracketed (s : Span) :
    (bracketed s).toList = ' ' :: ("(inlined at ".toList ++ (s.text.toList ++ [')'])) := by
  have hopening : " (inlined at ".toList = ' ' :: "(inlined at ".toList := rfl
  have hclosing : ")".toList = [')'] := rfl
  rw [bracketed, String.toList_append, String.toList_append, hopening, hclosing,
    List.append_assoc, List.cons_append]

/-- Call sites in brackets, one behind the other. -/
def brackets (sites : List Span) : String := String.join (sites.map bracketed)

lemma toList_brackets_cons (s : Span) (rest : List Span) :
    (brackets (s :: rest)).toList = (bracketed s).toList ++ (brackets rest).toList := by
  rw [brackets, List.map_cons, String.join_cons, String.toList_append, brackets]

/-- The line begins with the span and goes on with the call sites in brackets. -/
lemma text_eq (p : Provenance) : p.text = p.span.text ++ brackets p.sites := by
  have hfold (line : String) (sites : List Span) :
      sites.foldl (fun t s => t ++ " (inlined at " ++ s.text ++ ")") line =
        line ++ brackets sites := by
    induction sites generalizing line with
    | nil => rw [List.foldl_nil, brackets, List.map_nil, String.join_nil, String.append_empty]
    | cons s rest ih =>
      rw [List.foldl_cons, ih, brackets, brackets, List.map_cons, String.join_cons, bracketed]
      simp only [String.append_assoc]
  exact hfold p.span.text p.sites

/-- Call sites in brackets are read back one by one. -/
lemma brackets_inj (h : (brackets sites).toList = (brackets sites').toList) : sites = sites' := by
  have hne (s : Span) (rest : List Span) : (brackets (s :: rest)).toList ≠ [] := by
    intro hnil
    rw [toList_brackets_cons, toList_bracketed] at hnil
    cases hnil
  induction sites generalizing sites' with
  | nil =>
    cases sites' with
    | nil => rfl
    | cons s' rest' => exact absurd h.symm (hne s' rest')
  | cons s rest ih =>
    cases sites' with
    | nil => exact absurd h (hne s rest)
    | cons s' rest' =>
      -- The numbers of the span end at the bracket, so the first site is told from the rest.
      simp only [toList_brackets_cons, toList_bracketed, List.cons_append, List.append_assoc,
        List.nil_append] at h
      have hspan := List.append_cancel_left (List.cons.inj h).2
      obtain ⟨hs, hrest⟩ :=
        Span.text_append_inj (ends_cons (by decide)) (ends_cons (by decide)) hspan
      rw [hs, ih (List.cons.inj hrest).2]

/-- A bracket ends the number before it, and so does the end of the line. -/
lemma ends_brackets (sites : List Span) : Ends isNumeral (brackets sites).toList := by
  cases sites with
  | nil => exact ends_nil
  | cons s rest =>
    rw [toList_brackets_cons, toList_bracketed]
    exact ends_cons (by decide)

/-- No two provenances are written the same way. -/
lemma text_inj (h : p.text = q.text) : p = q := by
  -- The span ends where the first bracket opens, or with the line.
  have hlist := congrArg String.toList h
  rw [text_eq, text_eq, String.toList_append, String.toList_append] at hlist
  obtain ⟨hspan, hsites⟩ :=
    Span.text_append_inj (ends_brackets p.sites) (ends_brackets q.sites) hlist
  exact eq_iff_span_sites.mpr ⟨hspan, brackets_inj hsites⟩

end Provenance

/-! ## Diagnostics -/

namespace Fault

open Provenance

variable {f : Fault} {p : Provenance}

/-- The diagnostic has the span, and the call sites behind the note that all faults have in common.
-/
lemma toDiagnostic_of_info (h : f.info? = some p) :
    f.toDiagnostic.span = p.span ∧
      f.toDiagnostic.notes =
        contractNote :: p.expansions.map fun site => "inlined at " ++ site.span.text := by
  constructor
  · rw [toDiagnostic, h]
    rfl
  · rw [toDiagnostic, h]
    show contractNote :: p.sites.map _ = _
    rw [sites, List.map_map]
    rfl

/-- The line is the span of the diagnostic with its notes behind it, but for the first one. -/
lemma text_eq_of_info (h : f.info? = some p) :
    p.text = f.toDiagnostic.span.text ++
      String.join (f.toDiagnostic.notes.tail.map fun note => " (" ++ note ++ ")") := by
  obtain ⟨hspan, hnotes⟩ := toDiagnostic_of_info h
  have hnote (site : Provenance) :
      bracketed site.span = " (" ++ ("inlined at " ++ site.span.text) ++ ")" := by
    have hopening : " (inlined at " = " (" ++ "inlined at " := rfl
    rw [bracketed, hopening]
    simp only [String.append_assoc]
  rw [text_eq, hspan, hnotes, List.tail_cons, brackets, sites, List.map_map, List.map_map]
  exact congrArg (fun notes => p.span.text ++ String.join notes)
    (List.map_congr_left fun site _ => hnote site)

/-- A provenance is shown the same way in the diagnostic of a fault and on a line.  The diagnostic
has its span, and behind the note that all faults have in common one note for each call site,
innermost first; the line has the same spans in the same order.  No two provenances have the same
line, nor the same diagnostic. -/
theorem renderings_agree (f : Fault) (p : Provenance) (h : f.info? = some p) :
    f.toDiagnostic.span = p.span ∧
    f.toDiagnostic.notes =
      contractNote :: p.expansions.map (fun site => "inlined at " ++ site.span.text) ∧
    p.text = p.span.text ++
      String.join (p.expansions.map fun site => " (inlined at " ++ site.span.text ++ ")") ∧
    p.text = f.toDiagnostic.span.text ++
      String.join (f.toDiagnostic.notes.tail.map fun note => " (" ++ note ++ ")") ∧
    (∀ q r : Provenance, q.text = r.text ↔ q = r) ∧
    ∀ (g : Fault) (q : Provenance), g.info? = some q →
      (g.toDiagnostic.span = f.toDiagnostic.span ∧ g.toDiagnostic.notes = f.toDiagnostic.notes ↔
        q = p) := by
  obtain ⟨hspan, hnotes⟩ := toDiagnostic_of_info h
  refine ⟨hspan, hnotes, ?_, text_eq_of_info h, ?_, ?_⟩
  · rw [text_eq, brackets, sites, List.map_map]
    rfl
  · intro q r
    constructor
    · intro htext
      exact text_inj htext
    · intro hq
      rw [hq]
  · intro g q hg
    constructor
    · intro hshown
      -- The diagnostic decides what the line says, and the line decides the rest.
      apply text_inj
      rw [text_eq_of_info hg, text_eq_of_info h, hshown.1, hshown.2]
    · intro hq
      subst hq
      obtain ⟨hspan', hnotes'⟩ := toDiagnostic_of_info hg
      exact ⟨hspan'.trans hspan.symm, hnotes'.trans hnotes.symm⟩

/-- A declaration that does not resolve, in code that was inlined twice. -/
def strayInlined : Fault :=
  .danglingSlot (.localVar 0) (.copy ⟨1, 10, 20⟩ (.copy ⟨2, 0, 5⟩ (.original ⟨3, 7, 8⟩)))

/-- Its diagnostic lists both call sites, and they can be read back from the line. -/
theorem renderings_strayInlined :
    strayInlined.info?.isSome ∧ strayInlined.toDiagnostic.notes =
      [contractNote, "inlined at 2:0..5", "inlined at 3:7..8"] ∧
    ∀ q : Provenance, q.text = "1:10..20 (inlined at 2:0..5) (inlined at 3:7..8)" →
      q.sites = [⟨2, 0, 5⟩, ⟨3, 7, 8⟩] := by
  obtain ⟨-, hnotes, htext, -, hline, -⟩ := renderings_agree strayInlined _ rfl
  refine ⟨rfl, hnotes.trans (by decide +kernel), ?_⟩
  intro q hq
  have hsame : q.text = _ := hq.trans (Eq.trans (by decide +kernel) htext.symm)
  rw [(hline q _).mp hsame]
  rfl

end Fault
end DeclIR
