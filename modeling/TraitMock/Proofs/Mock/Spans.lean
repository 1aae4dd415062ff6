import TraitMock.Proofs.Decl.ReadSpans
import TraitMock.Proofs.Mock.Reports

/-!
# Proofs/Mock/Spans — problems are reported where they are found

Whatever is reported while an item is planned is reported at one of its types or patterns.  So in a
file that has been read, every report on an item points into it (`DeclFile.reports_inside`).
-/

namespace TraitMock

open Checked

variable {W : Span → Prop}

/-- **An item is reported on at spans** that its types and patterns have. -/
theorem Item.reportsIn_plan {item : Item} {levels : Int} (h : item.SpansIn W) :
    (item.plan levels).ReportsIn W := by
  intro d hd
  cases item.reports_plan levels d hd with
  | type mem => exact h.parts _ mem
  | pattern mem param => exact h.pats _ mem _ param

/-! ## Reports on what has been read -/

/-- **A span lies inside another**: both are known, in one file, and the first begins no earlier and
ends no later than the second. -/
def Span.Inside (s s' : Span) : Prop :=
  ∃ (file : Option String) (e e' : Extent), s = e.toSpan file ∧ s' = e'.toSpan file ∧ e.Inside e'

/-- **Every problem of an item that has been read is reported inside it**, whatever comes of its
planning, and whichever step reports it: at a known line and column of the file that was read,
within the span of the item.  An empty name of a file counts as none. -/
theorem DeclFile.reports_inside {file : Option String} {text : String} {decls : DeclFile}
    {item : Item} (h : DeclFile.parse file text = .ok decls) (hitem : item ∈ decls.items)
    (levels : Int) : ∀ d ∈ ((item.plan levels).run .collect).reports,
      d.span.file = (if file = some "" then none else file) ∧ d.span.line.isSome ∧
        d.span.column.isSome ∧ d.span.Inside item.span := by
  intro d hd
  obtain ⟨e, hspan, hspans⟩ := DeclFile.standsIn_of_parse h item hitem
  obtain ⟨e', hinside, hd⟩ := Item.reportsIn_plan hspans d hd
  rw [hspan, hd]
  refine ⟨?_, rfl, rfl, _, e', e, rfl, rfl, hinside⟩
  cases file with
  | none => rfl
  | some name => by_cases hname : name = "" <;> simp [Extent.toSpan, hname]

/-- An argument without a name, and a qualified path below an unnamed type, which is reported by
each of the two passes that come to it. -/
theorem boxedQualified_reported :
    ∃ decls item, DeclFile.parse (some "t.rs") "trait T { fn f(_: u8) -> impl A<<B as C>::D>; }" =
        .ok decls ∧ item ∈ decls.items ∧
      ((item.plan 2).run .collect).reports.map Diagnostic.message =
        [Problem.unnamedArgument.message, Problem.qualifiedPath.message,
          Problem.qualifiedPath.message] ∧
      ∀ d ∈ ((item.plan 2).run .collect).reports, d.span.file = some "t.rs" ∧ d.span.line.isSome ∧
        d.span.column.isSome ∧ d.span.Inside item.span := by
  obtain ⟨decls, hparse, hreports⟩ := exists_of_toOption
    (e := DeclFile.parse (some "t.rs") "trait T { fn f(_: u8) -> impl A<<B as C>::D>; }")
    (f := fun decls => decls.items.map fun item =>
      ((item.plan 2).run .collect).reports.map Diagnostic.message)
    (b := [[Problem.unnamedArgument.message, Problem.qualifiedPath.message,
      Problem.qualifiedPath.message]]) (by decide +kernel)
  obtain ⟨item, hitems, hitem⟩ := List.map_eq_singleton_iff.mp hreports
  have hmem : item ∈ decls.items := by
    rw [hitems]
    exact List.mem_singleton_self item
  exact ⟨decls, item, hparse, hmem, hitem, DeclFile.reports_inside hparse hmem 2⟩

/-- In a file with an empty name, a problem is reported in no file at all. -/
theorem unnamedFile_reported :
    ∃ decls item plan reports, DeclFile.parse (some "") "trait T { fn f(_: u8); }" = .ok decls ∧
      item ∈ decls.items ∧ (item.plan 2).run .collect = ⟨.ok plan, reports⟩ ∧
      ∃ d ∈ reports, d.span.file ≠ some "" := by
  obtain ⟨decls, hparse, hreports⟩ := exists_of_toOption
    (e := DeclFile.parse (some "") "trait T { fn f(_: u8); }")
    (f := fun decls => decls.items.map fun item =>
      (((item.plan 2).run .collect).result.toOption.map fun _ => (),
        ((item.plan 2).run .collect).reports.map fun d => d.span.file))
    (b := [(some (), [none])]) (by decide +kernel)
  obtain ⟨item, hitems, hitem⟩ := List.map_eq_singleton_iff.mp hreports
  obtain ⟨hplan, hfiles⟩ := Prod.mk.inj hitem
  obtain ⟨plan, reports, hrun, -⟩ := exists_run_of_toOption hplan
  rw [hrun] at hfiles
  obtain ⟨d, rfl, hd⟩ := List.map_eq_singleton_iff.mp hfiles
  refine ⟨decls, item, plan, [d], hparse, by simp [hitems], hrun, d, List.mem_singleton_self d, ?_⟩
  rw [hd]
  exact Option.some_ne_none "" ∘ Eq.symm

end TraitMock
