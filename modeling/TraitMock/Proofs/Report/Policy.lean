import TraitMock.Proofs.Report.Laws

/-!
# Proofs/Report/Policy — what a computation does where nobody collects problems

A run that halts at the first problem can be read off one that collects them: where nothing is
reported the two are the same, and otherwise the halting run ends with the message of the first
report, whatever comes behind it, a fault included (`Outcome.halted`).

* `Checked.Heeds` — the computation does just this.
* `Checked.Heeds.bind` — so does one put together from parts that do.
-/

namespace TraitMock

variable {α β : Type}

/-- **An outcome as it is where the first problem ends the computation.** -/
def Outcome.halted (o : Outcome α) : Outcome α :=
  match o.reports with
  | [] => o
  | first :: _ => ⟨.error (.uncollected first.message), []⟩

namespace Checked

/-- **A computation heeds the policy**: where it halts at problems, it does as where it collects
them until there is one, and then ends with its message. -/
def Heeds (c : Checked α) : Prop := c.run .halt = (c.run .collect).halted

namespace Heeds

theorem pure (a : α) : (Pure.pure a : Checked α).Heeds := rfl

theorem fail (fault : Fault) : (Checked.fail fault : Checked α).Heeds := rfl

theorem emit (d : Diagnostic) : (Checked.emit d).Heeds := rfl

theorem report (p : Problem) (span : Span) : (Checked.report p span).Heeds := emit _

/-- **Parts that heed the policy make a whole that does**: the first report of the whole is that of
the first part, or of what is run behind a first part that reports nothing. -/
theorem bind {c : Checked α} {f : α → Checked β} (hc : c.Heeds) (hf : ∀ a, (f a).Heeds) :
    (c >>= f).Heeds := by
  rw [Heeds, run_bind, run_bind, hc]
  rcases c.run .collect with ⟨fault | a, _ | ⟨first, rest⟩⟩
  · rfl
  · rfl
  · have hnext : (f a).run .halt = ((f a).run .collect).halted := hf a
    simp only [Outcome.halted, List.nil_append, hnext]
  · rfl

end Heeds

end Checked

end TraitMock
