import TraitMock.Report.Diagnostic

/-!
# Report/Checked — computations that report problems

A `Checked` computation says, for each of the two policies, what comes of it: a value or a fault,
and the problems found on the way.  Under `Policy.collect` problems are gathered and the computation
goes on; under `Policy.halt` the first problem ends it.  Problems found before a fault are kept.
-/

namespace TraitMock

/-- What to do with a problem. -/
inductive Policy
  /-- Gather it and go on. -/
  | collect
  /-- Stop at once. -/
  | halt
  deriving DecidableEq, Repr

/-- **What comes of a computation.** -/
structure Outcome (α : Type) where
  result : Except Fault α
  reports : List Diagnostic := []

/-- **A computation that may report problems and may end in a fault.** -/
def Checked (α : Type) : Type := Policy → Outcome α

namespace Checked

variable {α β : Type}

/-- Running a computation under a policy. -/
def run (c : Checked α) (policy : Policy) : Outcome α := c policy

instance : Monad Checked where
  pure a := fun _ => ⟨.ok a, []⟩
  bind c f := fun policy =>
    match c policy with
    | ⟨.error fault, reports⟩ => ⟨.error fault, reports⟩
    | ⟨.ok a, reports⟩ =>
      let next := f a policy
      ⟨next.result, reports ++ next.reports⟩

/-- Ending with a fault. -/
def fail (fault : Fault) : Checked α := fun _ => ⟨.error fault, []⟩

/-- **Showing a diagnostic**: it is gathered, or ends the computation with its message. -/
def emit (d : Diagnostic) : Checked Unit
  | .collect => ⟨.ok (), [d]⟩
  | .halt => ⟨.error (.uncollected d.message), []⟩

/-- **Reporting a problem at a place.** -/
def report (p : Problem) (span : Span) : Checked Unit := emit (.ofProblem p span)

/-- A computation that reports nothing. -/
def ofExcept : Except Fault α → Checked α := fun result _ => ⟨result, []⟩

@[simp] theorem run_pure (a : α) (policy : Policy) :
    (pure a : Checked α).run policy = ⟨.ok a, []⟩ := rfl

@[simp] theorem run_fail (fault : Fault) (policy : Policy) :
    (fail fault : Checked α).run policy = ⟨.error fault, []⟩ := rfl

/-- A computation goes on where the first part gave a value. -/
theorem run_bind_ok {c : Checked α} {policy : Policy} {a : α} {reports : List Diagnostic}
    (h : c.run policy = ⟨.ok a, reports⟩) (f : α → Checked β) :
    (c >>= f).run policy =
      ⟨((f a).run policy).result, reports ++ ((f a).run policy).reports⟩ := by
  simp only [run, bind] at h ⊢
  rw [h]

/-- A fault of the first part is the fault of the whole. -/
theorem run_bind_error {c : Checked α} {policy : Policy} {fault : Fault}
    {reports : List Diagnostic} (h : c.run policy = ⟨.error fault, reports⟩) (f : α → Checked β) :
    (c >>= f).run policy = ⟨.error fault, reports⟩ := by
  simp only [run, bind] at h ⊢
  rw [h]

end Checked

end TraitMock
