import TraitMock.Proofs.Report.Laws

/-!
# Proofs/Report/Ending — the fault that ends a computation

Where problems are collected, only a fault ends a computation early.  `Checked.EndsBy` lists the
faults that it would come to one after the other: it ends by the first of them, and gives a value if
there is none.  A whole comes to the faults of its parts, in the order in which these are run, and
of each part it may be taken that the ones before it gave their values.
-/

namespace TraitMock.Checked

variable {α β : Type}

/-- Where problems are collected, a computation gives a value. -/
def Gives (c : Checked α) (a : α) : Prop := ∃ reports, c.run .collect = ⟨.ok a, reports⟩

/-- Where problems are collected, a computation ends by a fault. -/
def FailsBy (c : Checked α) (fault : Fault) : Prop :=
  ∃ reports, c.run .collect = ⟨.error fault, reports⟩

/-- **A computation ends by the first of some faults**, where problems are collected, and gives a
value if there is none. -/
def EndsBy (c : Checked α) (faults : List Fault) : Prop :=
  match faults.head? with
  | some fault => c.FailsBy fault
  | none => ∃ a, c.Gives a

theorem Gives.unique {c : Checked α} {a b : α} (ha : c.Gives a) (hb : c.Gives b) : a = b := by
  obtain ⟨reports, ha⟩ := ha
  obtain ⟨reports', hb⟩ := hb
  exact Except.ok.inj (Outcome.mk.inj (ha.symm.trans hb)).1

theorem endsBy_of_gives {c : Checked α} {a : α} (h : c.Gives a) : c.EndsBy [] := ⟨a, h⟩

theorem gives_pure (a : α) : (pure a : Checked α).Gives a := ⟨[], rfl⟩

theorem gives_ofExcept (a : α) : (ofExcept (.ok a)).Gives a := ⟨[], rfl⟩

theorem endsBy_fail (fault : Fault) (rest : List Fault) :
    (fail fault : Checked α).EndsBy (fault :: rest) := ⟨[], rfl⟩

/-- **A whole ends by the faults of its parts**, the first part's first. -/
theorem EndsBy.bind {c : Checked α} {f : α → Checked β} {faults faults' : List Fault}
    (hc : c.EndsBy faults) (hf : ∀ a, c.Gives a → (f a).EndsBy faults') :
    (c >>= f).EndsBy (faults ++ faults') := by
  cases faults with
  | cons fault rest =>
    obtain ⟨reports, hrun⟩ := hc
    exact ⟨reports, run_bind_error hrun f⟩
  | nil =>
    obtain ⟨a, reports, hrun⟩ := hc
    have ha := hf a ⟨reports, hrun⟩
    rw [List.nil_append]
    unfold EndsBy at ha ⊢
    split at ha
    · obtain ⟨reports', hrun'⟩ := ha
      exact ⟨_, by rw [run_bind_ok hrun, hrun']⟩
    · obtain ⟨b, reports', hrun'⟩ := ha
      exact ⟨b, _, by rw [run_bind_ok hrun, hrun']⟩

/-- A whole whose second part always gives a value ends by the faults of the first. -/
theorem EndsBy.bind_of_gives {c : Checked α} {f : α → Checked β} {faults : List Fault}
    (hc : c.EndsBy faults) (hf : ∀ a, c.Gives a → ∃ b, (f a).Gives b) :
    (c >>= f).EndsBy faults := by
  have hbind : (c >>= f).EndsBy (faults ++ []) := hc.bind hf
  rwa [List.append_nil] at hbind

/-- What is only worked out of the value does not end a computation. -/
theorem EndsBy.map {c : Checked α} {faults : List Fault} (h : c.EndsBy faults) (f : α → β) :
    (c >>= fun a => pure (f a)).EndsBy faults :=
  h.bind_of_gives fun a _ => ⟨f a, gives_pure (f a)⟩

/-- **A computation ends by no other fault** than the first of those it ends by. -/
theorem EndsBy.failsBy_iff {c : Checked α} {faults : List Fault} (h : c.EndsBy faults)
    (fault : Fault) : c.FailsBy fault ↔ faults.head? = some fault := by
  unfold EndsBy at h
  constructor
  · rintro ⟨reports, hrun⟩
    split at h
    next hhead =>
      obtain ⟨_, hrun'⟩ := h
      rw [hhead]
      exact congrArg some (Except.error.inj (Outcome.mk.inj (hrun'.symm.trans hrun)).1)
    next =>
      obtain ⟨a, _, hrun'⟩ := h
      exact nomatch (Outcome.mk.inj (hrun'.symm.trans hrun)).1
  · intro hhead
    rwa [hhead] at h

end TraitMock.Checked
