import TraitMock.Proofs.Decl.ReadMoved
import TraitMock.Proofs.Mock.Forms
import TraitMock.Proofs.Mock.Moved
import TraitMock.Proofs.Syntax.Concat
import TraitMock.Proofs.Syntax.Down
import TraitMock.Syntax.Parse

/-!
# Proofs/Mock/Concat — files compose by concatenation

Two declaration files with a new line between them are read as one: its items are those of the first
and then those of the second, as many lines further down as the first one has.  So are its plans and
its problems, and what is wrong with the second file is wrong with the whole
(`DeclFile.parse_concat`).
-/

namespace TraitMock

variable {d : Nat} {file : Option String}

/-! ## Lines further down -/

/-- **A span some lines further down**: the same columns of the same file. -/
def Span.down (d : Nat) (s : Span) : Span :=
  { s with line := s.line.map (· + d), endLine := s.endLine.map (· + d) }

theorem Extent.toSpan_down (e : Extent) (file : Option String) :
    (e.down d).toSpan file = (e.toSpan file).down d := rfl

/-- Two extents give spans that many lines apart exactly if they are so themselves. -/
theorem Extent.sameMoved_down_iff {e e' : Extent} :
    Extent.SameMoved (Span.down d) id e e' ↔ e' = e.down d := by
  constructor
  · intro h
    obtain ⟨⟨line, column⟩, ⟨endLine, endColumn⟩⟩ := e
    obtain ⟨⟨line', column'⟩, ⟨endLine', endColumn'⟩⟩ := e'
    have hspan := h none
    simp only [Span.down, Extent.toSpan, id_eq, Option.map_some, Span.mk.injEq, Option.some.injEq,
      true_and] at hspan
    simp only [Extent.down, Pos.down, Extent.mk.injEq, Pos.mk.injEq]
    omega
  · rintro rfl
    exact fun file => (e.toSpan_down file).symm

theorem corresponds_down : Corresponds (Extent.SameMoved (Span.down d) id) where
  join := by
    simp only [Extent.sameMoved_down_iff]
    rintro a _ b _ rfl rfl
    rfl
  point := by
    simp only [Extent.sameMoved_down_iff]
    rintro a _ rfl
    rfl

/-- **Items that are read some lines further down** are the same ones, there. -/
theorem Machine.readFrom_items_down (cs : List Char) :
    readFrom file .declFile [] none (({} : Pos).down d) cs =
      ((parse file .declFile cs).mapError (SyntaxError.down d)).map
        fun items : List Item => items.map (Item.moved (Span.down d)) := by
  have hread : AgreeDown _ _ _ (parse file .declFile cs)
      (readFrom file .declFile [] none (({} : Pos).down d) cs) :=
    @readFrom_down d _ _ file .declFile corresponds_down
      (fun e => Extent.sameMoved_down_iff.mpr rfl)
      (Grammar.rules_respect (f := Span.down d) (g := id)) [] [] none {} cs .nil
      (fun _ here => by rw [finish_nil]; rfl)
  generalize parse file .declFile cs = outcome,
    readFrom file .declFile [] none (({} : Pos).down d) cs = below at hread ⊢
  cases hread with
  | ok hsame =>
    exact congrArg Except.ok (hsame.trans (List.map_id'' Item.moved_id _)).symm
  | error e => rfl

/-! ## Planning items behind other items -/

/-- Items are planned behind other items as they are alone. -/
theorem planItems_append (levels : Int) (items items' : List Item) :
    planItems levels (items ++ items') =
      do return (← planItems levels items) ++ (← planItems levels items') := by
  induction items with
  | nil =>
    simp only [List.nil_append, planItems, Checked.pure_bind]
    exact (Checked.bind_pure _).symm
  | cons item rest ih =>
    simp only [List.cons_append, planItems, ih, Checked.bind_assoc, Checked.pure_bind,
      List.append_assoc]

/-- **The plan of items behind other items**, where both are planned: the plans and the reports of
the one, and then those of the other. -/
theorem run_planItems_append {levels : Int} {policy : Policy} {items items' : List Item}
    {plans plans' : List MockPlan} {reports reports' : List Diagnostic}
    (h : (planItems levels items).run policy = ⟨.ok plans, reports⟩)
    (h' : (planItems levels items').run policy = ⟨.ok plans', reports'⟩) :
    (planItems levels (items ++ items')).run policy =
      ⟨.ok (plans ++ plans'), reports ++ reports'⟩ := by
  rw [planItems_append, Checked.run_bind_ok h, Checked.run_bind_ok h']
  simp only [Checked.run_pure, List.append_nil]

/-! ## Two files -/

/-- How many lines further down a text stands behind another one and a new line. -/
def linesDown (text : String) : Nat := 1 + text.toList.count '\n'

/-- **A file, a new line and a second file are read** as the items of the first and, further down,
those of the second, or with the error of the second. -/
theorem DeclFile.parse_line {text : String} {decls : DeclFile}
    (h : DeclFile.parse file text = .ok decls) (text' : String) :
    DeclFile.parse file (text ++ "\n" ++ text') =
      ((DeclFile.parse file text').mapError (SyntaxError.down (linesDown text))).map fun decls' =>
        ⟨decls.items ++ decls'.items.map (Item.moved (Span.down (linesDown text))), file⟩ := by
  have hitems := (DeclFile.parse_eq_ok_iff.mp h).1
  have htext : (text ++ "\n" ++ text').toList = text.toList ++ '\n' :: text'.toList := by
    simp [String.toList_append]
  rw [DeclFile.parse, DeclFile.parse, htext, Machine.parse_line hitems, Pos.after_line,
    Machine.readFrom_items_down]
  cases Machine.parse file .declFile text'.toList <;> rfl

/-- **Files compose by concatenation.**  A file that is read, a new line and a second text: if the
second is read, so is the whole, and its items are those of the first and then those of the second
with every line further down by one and the number of line feeds in the first; where both are
planned, so is the whole, with the plans and the reports of the first and then those of the second,
further down as well.  If the second is not read, the whole is not either, and the error is the same
one in the same column, further down. -/
theorem DeclFile.parse_concat {text : String} {decls : DeclFile}
    (h : DeclFile.parse file text = .ok decls) (text' : String) :
    (∀ decls', DeclFile.parse file text' = .ok decls' →
      ∃ whole, DeclFile.parse file (text ++ "\n" ++ text') = .ok whole ∧
        whole.items =
          decls.items ++ decls'.items.map (Item.moved (Span.down (1 + text.toList.count '\n'))) ∧
        ∀ (levels : Int) (policy : Policy) (plans plans' : List MockPlan)
          (reports reports' : List Diagnostic),
          (decls.plan levels).run policy = ⟨.ok plans, reports⟩ →
          (decls'.plan levels).run policy = ⟨.ok plans', reports'⟩ →
          (whole.plan levels).run policy =
            ⟨.ok (plans ++ plans'.map (MockPlan.moved (Span.down (1 + text.toList.count '\n')))),
              reports ++
                reports'.map (Diagnostic.moved (Span.down (1 + text.toList.count '\n')))⟩) ∧
    ∀ e, DeclFile.parse file text' = .error e →
      ∃ e', DeclFile.parse file (text ++ "\n" ++ text') = .error e' ∧
        e'.pos = ⟨e.pos.line + (1 + text.toList.count '\n'), e.pos.column⟩ := by
  have hline := DeclFile.parse_line h text'
  constructor
  · intro decls' h'
    rw [h'] at hline
    refine ⟨_, hline, rfl, fun levels policy plans plans' reports reports' hplan hplan' => ?_⟩
    refine run_planItems_append hplan ?_
    have hmoved := decls'.run_plan_moved (f := Span.down (linesDown text)) rfl levels policy
    rw [hplan'] at hmoved
    exact hmoved
  · intro e h'
    rw [h'] at hline
    exact ⟨_, hline, e.pos_down⟩

/-- A file that ends in a comment, with a file behind it of which a problem is reported, and with
one that is not read. -/
theorem commentedFile_concat :
    ∃ decls decls' whole plans plans' reports reports' e e',
      DeclFile.parse none "trait A { fn f(); }\n// end" = .ok decls ∧
      DeclFile.parse none "trait T { fn g(_: u8) -> Self; }" = .ok decls' ∧
      (decls.plan 2).run .collect = ⟨.ok plans, reports⟩ ∧
      (decls'.plan 2).run .collect = ⟨.ok plans', reports'⟩ ∧ reports'.length = 1 ∧
      DeclFile.parse none ("trait A { fn f(); }\n// end" ++ "\n" ++
        "trait T { fn g(_: u8) -> Self; }") = .ok whole ∧
      (whole.plan 2).run .collect =
        ⟨.ok (plans ++ plans'.map (MockPlan.moved (Span.down 2))),
          reports ++ reports'.map (Diagnostic.moved (Span.down 2))⟩ ∧
      DeclFile.parse none "trait fn" = .error e ∧
      DeclFile.parse none ("trait A { fn f(); }\n// end" ++ "\n" ++ "trait fn") = .error e' ∧
      e'.pos = ⟨e.pos.line + 2, e.pos.column⟩ := by
  obtain ⟨decls, hparse, hplan⟩ := exists_of_toOption
    (e := DeclFile.parse none "trait A { fn f(); }\n// end")
    (f := fun decls => ((decls.plan 2).run .collect).result.toOption.map fun _ => ())
    (b := some ()) (by decide +kernel)
  obtain ⟨decls', hparse', hplan'⟩ := exists_of_toOption
    (e := DeclFile.parse none "trait T { fn g(_: u8) -> Self; }")
    (f := fun decls => (((decls.plan 2).run .collect).result.toOption.map fun _ => (),
      ((decls.plan 2).run .collect).reports.length))
    (b := (some (), 1)) (by decide +kernel)
  obtain ⟨hplan', hreports'⟩ := Prod.mk.inj hplan'
  obtain ⟨plans, reports, hrun, -⟩ := Checked.exists_run_of_toOption hplan
  obtain ⟨plans', reports', hrun', -⟩ := Checked.exists_run_of_toOption hplan'
  rw [hrun'] at hreports'
  have hrefused : (DeclFile.parse none "trait fn").toOption.isNone := by decide +kernel
  have hlines : 1 + "trait A { fn f(); }\n// end".toList.count '\n' = 2 := by decide
  have hconcat := DeclFile.parse_concat hparse
  simp only [hlines] at hconcat
  obtain ⟨whole, hwhole, -, hplans⟩ := (hconcat "trait T { fn g(_: u8) -> Self; }").1 decls' hparse'
  cases herror : DeclFile.parse none "trait fn" with
  | ok decls =>
    rw [herror] at hrefused
    cases hrefused
  | error e =>
    obtain ⟨e', herror', hpos⟩ := (hconcat "trait fn").2 e herror
    exact ⟨decls, decls', whole, plans, plans', reports, reports', e, e', hparse, hparse',
      hrun, hrun', hreports', hwhole, hplans 2 .collect plans plans' reports reports' hrun hrun',
      rfl, herror', hpos⟩

end TraitMock
