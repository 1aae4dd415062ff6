import TraitMock.Report.Checked

/-!
# Proofs/Report/Clean — runs on which nothing is reported

A run is clean if it gives a value and reports nothing, under whatever policy.  A clean run of a
whole is a clean run of each of its parts, so `Yields` comes apart at every `>>=`, and it is refuted
by the first problem or fault.
-/

namespace TraitMock.Checked

variable {α β : Type} {policy : Policy}

/-- **A clean run**: it gives a value, and nothing is reported on the way. -/
def Yields (c : Checked α) (policy : Policy) (a : α) : Prop := c.run policy = ⟨.ok a, []⟩

@[simp] theorem yields_pure {a b : α} : (pure a : Checked α).Yields policy b ↔ a = b := by
  simp [Yields]

@[simp] theorem not_yields_fail {fault : Fault} {a : α} :
    ¬ (fail fault : Checked α).Yields policy a := by
  simp [Yields]

@[simp] theorem not_yields_report {p : Problem} {span : Span} {u : Unit} :
    ¬ (report p span).Yields policy u := by
  cases policy <;> simp [Yields, run, report, emit]

@[simp] theorem yields_ofExcept {result : Except Fault α} {a : α} :
    (ofExcept result).Yields policy a ↔ result = .ok a := by
  simp [Yields, run, ofExcept]

/-- **A clean run comes apart**: both halves of it are clean. -/
@[simp] theorem yields_bind {c : Checked α} {f : α → Checked β} {b : β} :
    (c >>= f).Yields policy b ↔ ∃ a, c.Yields policy a ∧ (f a).Yields policy b := by
  simp only [Yields]
  rcases hc : c.run policy with ⟨result, reports⟩
  cases result with
  | error fault => simp [run_bind_error hc]
  | ok a =>
    rw [run_bind_ok hc]
    constructor
    · intro h
      obtain ⟨hr, hall⟩ : ((f a).run policy).result = .ok b ∧ reports ++ _ = [] := Outcome.mk.inj h
      obtain ⟨rfl, hs⟩ := List.append_eq_nil_iff.mp hall
      refine ⟨a, rfl, ?_⟩
      rw [← hr, ← hs]
    · rintro ⟨a', ha', hb⟩
      cases ha'
      rw [hb, List.nil_append]

/-- **Clean runs can be evaluated**, as far as it matters what comes of them. -/
theorem exists_yields {c : Checked α} {f : α → β} {b : β}
    (h : ((c.run policy).result.toOption.map f, (c.run policy).reports) = (some b, [])) :
    ∃ a, c.Yields policy a ∧ f a = b := by
  obtain ⟨hresult, hreports⟩ := Prod.mk.inj h
  rw [Option.map_eq_some_iff] at hresult
  obtain ⟨a, ha, hb⟩ := hresult
  refine ⟨a, ?_, hb⟩
  cases hrun : (c.run policy).result with
  | error fault =>
    rw [hrun] at ha
    cases ha
  | ok a' =>
    rw [hrun] at ha
    obtain rfl := Option.some.inj ha
    rw [Yields, ← hrun, ← hreports]

end TraitMock.Checked
