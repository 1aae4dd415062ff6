import TraitMock.Proofs.Report.Ending

/-!
# Proofs/Report/Reports — what a computation reports

`Checked.Reports` says of a computation that all that it reports has a property, where problems are
collected.  A whole reports what its parts do, and of the second part it may be taken that the first
gave its value; behind a fault nothing is reported.  `Checked.ReportsIn` says so of the spans alone.
-/

namespace TraitMock.Checked

variable {α β : Type}

/-- **All that a computation reports has a property.** -/
def Reports (P : Diagnostic → Prop) (c : Checked α) : Prop := ∀ d ∈ (c.run .collect).reports, P d

/-- **A computation reports at spans with a property.** -/
def ReportsIn (W : Span → Prop) (c : Checked α) : Prop := ∀ d ∈ (c.run .collect).reports, W d.span

namespace Reports

variable {P : Diagnostic → Prop}

theorem pure (a : α) : (Pure.pure a : Checked α).Reports P := List.forall_mem_nil _

theorem fail (fault : Fault) : (Checked.fail fault : Checked α).Reports P := List.forall_mem_nil _

theorem ofExcept (result : Except Fault α) : (Checked.ofExcept result).Reports P :=
  List.forall_mem_nil _

theorem emit {d : Diagnostic} (h : P d) : (Checked.emit d).Reports P :=
  List.forall_mem_singleton.mpr h

theorem report {p : Problem} {s : Span} (h : P (.ofProblem p s)) : (Checked.report p s).Reports P :=
  emit h

/-- **A whole reports what its parts do.** -/
theorem bind {c : Checked α} {f : α → Checked β} (hc : c.Reports P)
    (hf : ∀ a, c.Gives a → (f a).Reports P) : (c >>= f).Reports P := by
  intro d hd
  rw [run_bind] at hd
  split at hd
  next _ reports hrun => exact hc d (by rwa [hrun])
  next a reports hrun =>
    rcases List.mem_append.mp hd with hd | hd
    · exact hc d (by rwa [hrun])
    · exact hf a ⟨reports, hrun⟩ d hd

/-- A problem that is reported on a condition, before the rest. -/
theorem reportIf (b : Bool) {p : Problem} {s : Span} {rest : Unit → Checked α}
    (h : P (.ofProblem p s)) (hrest : ∀ u, (rest u).Reports P) :
    (if b then Checked.report p s >>= rest else rest ()).Reports P := by
  cases b with
  | false => exact hrest ()
  | true => exact (report h).bind fun u _ => hrest u

/-- What is only worked out of the value reports nothing. -/
theorem map {c : Checked α} (h : c.Reports P) (f : α → β) :
    (c >>= fun a => Pure.pure (f a)).Reports P :=
  h.bind fun a _ => pure (f a)

end Reports

end TraitMock.Checked
