/-!
# Walk/Edit — what a walk makes of a value

A walk over a tree leaves a value as it is or replaces it.  `Edit` says which, so that a tree of
which nothing was replaced is known to be left alone, without being compared.
-/

namespace TraitMock

/-- **What becomes of a value.** -/
inductive Edit (α : Type)
  /-- The value is left as it is. -/
  | keep
  /-- Another value takes its place. -/
  | replace (new : α)

namespace Edit

variable {α β : Type}

/-- The value after the edit. -/
def apply (old : α) : Edit α → α
  | keep => old
  | replace new => new

/-- Whether the value is left as it is. -/
def isKeep : Edit α → Bool
  | keep => true
  | replace _ => false

/-- The edit of a value that holds the edited one. -/
def map (f : α → β) : Edit α → Edit β
  | keep => keep
  | replace new => replace (f new)

/-- The edit of a list from those of its first member and of the others. -/
def cons (head : α) (tail : List α) : Edit α → Edit (List α) → Edit (List α)
  | keep, keep => keep
  | e, es => replace (e.apply head :: es.apply tail)

/-- What is kept is the old value. -/
@[simp] theorem apply_keep (old : α) : (keep : Edit α).apply old = old := rfl

/-- What is put in place is the new value, whatever the old one was. -/
@[simp] theorem apply_replace (old new : α) : (replace new).apply old = new := rfl

/-- Changing what is put in place does not make it kept. -/
@[simp] theorem isKeep_map (f : α → β) (e : Edit α) : (e.map f).isKeep = e.isKeep := by
  cases e <;> rfl

/-- An edit and what is made of it lead from a value and what is made of it to the same. -/
theorem apply_map (f : α → β) (old : α) (e : Edit α) :
    (e.map f).apply (f old) = f (e.apply old) := by
  cases e <;> rfl

/-- **The edit of a list is that of its head and of its rest**, each at its own. -/
theorem apply_cons (head : α) (tail : List α) (e : Edit α) (es : Edit (List α)) :
    (cons head tail e es).apply (head :: tail) = e.apply head :: es.apply tail := by
  cases e <;> cases es <;> rfl

/-- A list is left alone exactly if its head and its rest are. -/
theorem isKeep_cons (head : α) (tail : List α) (e : Edit α) (es : Edit (List α)) :
    (cons head tail e es).isKeep = (e.isKeep && es.isKeep) := by
  cases e <;> cases es <;> rfl

end Edit

end TraitMock
