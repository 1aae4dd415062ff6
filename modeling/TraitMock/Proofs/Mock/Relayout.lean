import TraitMock.Proofs.Decl.ReadMoved
import TraitMock.Proofs.Decl.RoundTrip
import TraitMock.Proofs.Mock.Moved
import TraitMock.Proofs.Syntax.Relayout
import TraitMock.Syntax.Parse

/-!
# Proofs/Mock/Relayout — layout does not matter

A declaration file with more blanks and comments between its tokens is read, and gives the same
declarations up to places; planning it gives plans that are shown the same, and the same problems in
the same order (`DeclFile.exists_plan_of_spread`).
-/

namespace TraitMock

/-- Reports at other places say the same. -/
theorem map_says_moved {f : Span → Span} (reports : List Diagnostic) :
    (reports.map (Diagnostic.moved f)).map (fun d => (d.phase, d.message)) =
      reports.map fun d => (d.phase, d.message) := by
  rw [List.map_map]
  rfl

theorem map_toJson_moved {f : Span → Span} (plans : List MockPlan) :
    (plans.map (MockPlan.moved f)).map MockPlan.toJson = plans.map MockPlan.toJson := by
  rw [List.map_map]
  exact List.map_congr_left fun plan _ => plan.toJson_moved

/-- **A declaration file that is read is made of its words**, with layout between them. -/
theorem DeclFile.spread_of_parse {file : Option String} {text : String} {decls : DeclFile}
    (h : DeclFile.parse file text = .ok decls) :
    Spread (Machine.wordsOf file .declFile text.toList) text.toList text.toList := by
  unfold DeclFile.parse at h
  cases hitems : Machine.parse file .declFile text.toList with
  | error e => rw [hitems] at h; cases h
  | ok items => exact Machine.spread_of_parse hitems

/-- **A declaration file is read with more layout too**, and is the same up to places. -/
theorem DeclFile.exists_parse_of_spread {file : Option String} {text text' : String}
    {decls : DeclFile} (h : DeclFile.parse file text = .ok decls)
    (hspread : Spread (Machine.wordsOf file .declFile text.toList) text.toList text'.toList) :
    ∃ decls', DeclFile.parse file text' = .ok decls' ∧
      decls.moved .forget = decls'.moved .forget := by
  unfold DeclFile.parse at h ⊢
  cases hitems : Machine.parse file .declFile text.toList with
  | error e => rw [hitems] at h; cases h
  | ok items =>
    rw [hitems] at h
    obtain rfl := Except.ok.inj h
    obtain ⟨items', hitems', hsame⟩ :=
      Machine.exists_parse_of_spread (fun _ _ _ => rfl)
        (Grammar.rules_respect (f := .forget) (g := .forget)) hitems hspread
    refine ⟨⟨items', file⟩, by rw [hitems']; rfl, ?_⟩
    exact congrArg (DeclFile.mk · file) hsame

/-- A trait with a keyword right in front of a name and a comment up to its end, and the same trait
with blanks and a comment put in. -/
theorem commentedTrait_spread :
    Spread (Machine.wordsOf none .declFile "trait T\x7bfna();\x7d//x".toList)
      "trait T\x7bfna();\x7d//x".toList "\ttrait T\x7b// c\nfn a();\x7d//x \n".toList := by
  have hwords : Machine.wordsOf none .declFile "trait T\x7bfna();\x7d//x".toList =
      ["trait", "T", "\x7b", "fn", "a", "(", ")", ";", "\x7d"] := by decide +kernel
  have htext : "trait T\x7bfna();\x7d//x".toList =
      "trait".toList ++ ([' '] ++ ("T".toList ++ ("\x7b".toList ++ ("fn".toList ++
        ("a".toList ++ ("(".toList ++ (")".toList ++ (";".toList ++
          ("\x7d".toList ++ ['/', '/', 'x']))))))))) := rfl
  have htext' : "\ttrait T\x7b// c\nfn a();\x7d//x \n".toList =
      ['\t'] ++ ("trait".toList ++ ([' '] ++ ("T".toList ++ ("\x7b".toList ++
        ('/' :: '/' :: [' ', 'c'] ++ ['\n'] ++ ("fn".toList ++ ([' '] ++ ("a".toList ++
          ("(".toList ++ (")".toList ++ (";".toList ++ ("\x7d".toList ++
            ('/' :: '/' :: ['x'] ++ ([' '] ++ (['\n'] ++ []))))))))))))))) := rfl
  rw [hwords, htext, htext']
  exact .insert (.blank rfl) <| .word _ <| .keep (.blank rfl) <| .word _ <| .word _ <|
    .insert (.comment (by decide)) <| .word _ <| .insert (.blank rfl) <| .word _ <| .word _ <|
    .word _ <| .word _ <| .word _ <|
    .lastComment (by decide) (.cons (.blank rfl) (.cons (.blank rfl) .nil))

/-- **Layout does not matter**: a declaration file is its words with layout between them, and with
more blanks and comments between the words, in front of them or behind them it is read as well.  Its
declarations are alike then, and if the file is planned, so is the other one, with plans that are
shown the same and the same reports but for their places. -/
theorem DeclFile.exists_plan_of_spread {file : Option String} {text : String} {decls : DeclFile}
    (h : DeclFile.parse file text = .ok decls) :
    Spread (Machine.wordsOf file .declFile text.toList) text.toList text.toList ∧
    ∀ text' : String, Spread (Machine.wordsOf file .declFile text.toList) text.toList text'.toList →
      ∃ decls', DeclFile.parse file text' = .ok decls' ∧ decls.alike decls' = true ∧
        ∀ (levels : Int) (policy : Policy) (plans : List MockPlan) (reports : List Diagnostic),
          (decls.plan levels).run policy = ⟨.ok plans, reports⟩ →
            ∃ plans' reports', (decls'.plan levels).run policy = ⟨.ok plans', reports'⟩ ∧
              plans'.map MockPlan.toJson = plans.map MockPlan.toJson ∧
              reports'.map (fun d => (d.phase, d.message)) =
                reports.map fun d => (d.phase, d.message) := by
  refine ⟨DeclFile.spread_of_parse h, fun text' hspread => ?_⟩
  obtain ⟨decls', hparse', hsame⟩ := DeclFile.exists_parse_of_spread h hspread
  refine ⟨decls', hparse', (DeclFile.alike_iff decls decls').mpr hsame, ?_⟩
  intro levels policy plans reports hplan
  obtain ⟨plans', reports', hplan', hplans, hreports⟩ := DeclFile.exists_run_plan rfl hsame hplan
  refine ⟨plans', reports', hplan', ?_, ?_⟩
  · rw [← map_toJson_moved (f := .forget) plans, hplans, map_toJson_moved]
  · rw [← map_says_moved (f := .forget) reports, hreports, map_says_moved]

/-- The mocks of a trait are the same with blanks and a comment put in. -/
theorem commentedTrait_plan :
    ∃ decls decls' plans plans' reports reports',
      DeclFile.parse none "trait T\x7bfna();\x7d//x" = .ok decls ∧
      DeclFile.parse none "\ttrait T\x7b// c\nfn a();\x7d//x \n" = .ok decls' ∧
      decls.alike decls' = true ∧
      (decls.plan 1).run .collect = ⟨.ok plans, reports⟩ ∧
      (decls'.plan 1).run .collect = ⟨.ok plans', reports'⟩ ∧
      plans.length = 1 ∧ plans'.map MockPlan.toJson = plans.map MockPlan.toJson := by
  obtain ⟨decls, hparse, hcount⟩ := exists_of_toOption
    (e := DeclFile.parse none "trait T\x7bfna();\x7d//x")
    (f := fun decls => ((decls.plan 1).run .collect).result.toOption.map List.length)
    (b := some 1) (by decide +kernel)
  obtain ⟨-, hagain⟩ := DeclFile.exists_plan_of_spread hparse
  obtain ⟨decls', hparse', halike, hplans⟩ := hagain _ commentedTrait_spread
  cases hrun : (decls.plan 1).run .collect with
  | mk result reports =>
    rw [hrun] at hcount
    obtain ⟨plans, rfl, hone⟩ := exists_of_toOption hcount
    obtain ⟨plans', reports', hrun', hjson, -⟩ := hplans 1 .collect plans reports hrun
    exact ⟨decls, decls', plans, plans', reports, reports', hparse, hparse', halike, hrun, hrun',
      hone, hjson⟩

end TraitMock
