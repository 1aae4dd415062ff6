import TraitMock.Report.Checked

/-!
# Proofs/Report/Laws — computations put one behind the other

What is reported comes in the order in which the parts are run, however these are grouped.
-/

namespace TraitMock.Checked

variable {α β : Type}

/-- Running one computation behind another, whatever comes of the first. -/
theorem run_bind (c : Checked α) (f : α → Checked β) (policy : Policy) :
    (c >>= f).run policy =
      match c.run policy with
      | ⟨.error fault, reports⟩ => ⟨.error fault, reports⟩
      | ⟨.ok a, reports⟩ =>
        ⟨((f a).run policy).result, reports ++ ((f a).run policy).reports⟩ := rfl

/-- What one computation behind another gives, it gives for what the first one gives. -/
theorem result_bind_eq_ok {c : Checked α} {f : α → Checked β} {policy : Policy} {b : β} :
    ((c >>= f).run policy).result = .ok b ↔
      ∃ a, (c.run policy).result = .ok a ∧ ((f a).run policy).result = .ok b := by
  rw [run_bind]
  rcases c.run policy with ⟨_ | a, reports⟩ <;> simp

/-- Computations that run alike are the same. -/
theorem ext_run {c d : Checked α} (h : ∀ policy, c.run policy = d.run policy) : c = d := funext h

protected theorem bind_assoc {γ : Type} (c : Checked α) (f : α → Checked β) (g : β → Checked γ) :
    c >>= f >>= g = c >>= fun a => f a >>= g := by
  refine ext_run fun policy => ?_
  simp only [run_bind]
  rcases c.run policy with ⟨_ | a, reports⟩
  · rfl
  · dsimp only
    rcases (f a).run policy with ⟨_ | b, reports'⟩
    · rfl
    · simp only [List.append_assoc]

protected theorem pure_bind (a : α) (f : α → Checked β) : pure a >>= f = f a := rfl

protected theorem bind_pure (c : Checked α) : c >>= pure = c := by
  refine ext_run fun policy => ?_
  rw [run_bind]
  rcases c.run policy with ⟨_ | a, reports⟩
  · rfl
  · simp only [run_pure, List.append_nil]

/-- Behind a fault nothing is run. -/
@[simp] theorem fail_bind (fault : Fault) (f : α → Checked β) : fail fault >>= f = fail fault := rfl

end TraitMock.Checked
