import TraitMock.Proofs.Report.Laws

/-!
# Proofs/Report/Moved — the same reports at other places

Nothing that a computation does depends on the places that it reports: putting all its reports at
other places goes through every sequence of parts (`Checked.moved_bind`), and leaves its value and
the wording of what it reports.
-/

namespace TraitMock

variable {α β : Type} (f : Span → Span)

/-- A diagnostic at another place. -/
def Diagnostic.moved (d : Diagnostic) : Diagnostic := { d with span := f d.span }

namespace Checked

/-- **A computation with its reports at other places.** -/
def moved (c : Checked α) : Checked α := fun policy =>
  ⟨(c policy).result, (c policy).reports.map (Diagnostic.moved f)⟩

variable {f}

theorem run_moved (c : Checked α) (policy : Policy) :
    (c.moved f).run policy =
      ⟨(c.run policy).result, (c.run policy).reports.map (Diagnostic.moved f)⟩ := rfl

theorem moved_pure (a : α) : (pure a : Checked α).moved f = pure a := rfl

theorem moved_fail (fault : Fault) : (fail fault : Checked α).moved f = fail fault := rfl

theorem moved_ofExcept (result : Except Fault α) :
    (ofExcept result).moved f = ofExcept result := rfl

/-- The value of a computation that reports nothing, mapped. -/
theorem ofExcept_map (g : α → β) (result : Except Fault α) :
    ofExcept (result.map g) = do return g (← ofExcept result) := by
  cases result <;> rfl

theorem moved_report (p : Problem) (span : Span) : (report p span).moved f = report p (f span) := by
  refine ext_run fun policy => ?_
  cases policy <;> rfl

/-- **The reports of a whole** are moved with those of its parts. -/
theorem moved_bind (c : Checked α) (k : α → Checked β) :
    (c >>= k).moved f = c.moved f >>= fun a => (k a).moved f := by
  refine ext_run fun policy => ?_
  rw [run_moved, run_bind, run_bind, run_moved]
  rcases c.run policy with ⟨_ | a, reports⟩
  · rfl
  · simp only [run_moved, List.map_append]

end Checked

end TraitMock
