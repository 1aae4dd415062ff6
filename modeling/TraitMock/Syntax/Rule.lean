import TraitMock.Syntax.Symbol

/-!
# Syntax/Rule — grammar rules with optional parts, and the plain productions they stand for

A `Rule` is written the way a grammar is read: a sequence of marks, tokens and phrases, with
optional stretches that may be nested, and an action on what they mean.  A `Production` is a plain
right-hand side without options.  `Rule.productions` lists the productions of a rule, one for each
choice of its options, each with the same action.
-/

namespace TraitMock

/-- **The right-hand side of a rule.** -/
inductive Parts
  | done
  /-- A terminal whose text carries no meaning. -/
  | mark (t : Terminal) (rest : Parts)
  /-- A terminal whose text matters. -/
  | token (t : Terminal) (rest : Parts)
  | phrase (n : Nonterminal) (rest : Parts)
  /-- A stretch that may be left out. -/
  | maybe (inner rest : Parts)

namespace Parts

/-- What the parts of a rule mean together. -/
@[reducible] def Val : Parts → Type
  | done => Unit
  | mark _ rest => rest.Val
  | token _ rest => Token × rest.Val
  | phrase n rest => n.Val × rest.Val
  | maybe inner rest => Option inner.Val × rest.Val

/-- A plain sequence of symbols whose values determine a value of type `α`. -/
structure Reading (α : Type) where
  rhs : List Symbol
  value : Symbol.Vals rhs → α

/-- **Every choice of the options**: the choices without an optional stretch come before those with
it, and earlier options vary more slowly than later ones. -/
def readings : (p : Parts) → List (Reading p.Val)
  | done => [⟨[], fun _ => ()⟩]
  | mark t rest => rest.readings.map fun r => ⟨.term t :: r.rhs, fun (_, vs) => r.value vs⟩
  | token t rest => rest.readings.map fun r => ⟨.term t :: r.rhs, fun (v, vs) => (v, r.value vs)⟩
  | phrase n rest =>
    rest.readings.map fun r => ⟨.phrase n :: r.rhs, fun (v, vs) => (v, r.value vs)⟩
  | maybe inner rest =>
    rest.readings.map (fun r => ⟨r.rhs, fun vs => (none, r.value vs)⟩) ++
      inner.readings.flatMap fun i => rest.readings.map fun r =>
        ⟨i.rhs ++ r.rhs, fun vs =>
          let (us, ws) := Symbol.Vals.split i.rhs vs
          (some (i.value us), r.value ws)⟩

end Parts

/-- **A grammar rule**: what a phrase is made of, and what it then means. -/
structure Rule where
  lhs : Nonterminal
  parts : Parts
  action : Place → parts.Val → lhs.Val

/-- **A rule without options.** -/
structure Production where
  lhs : Nonterminal
  rhs : List Symbol
  action : Place → Symbol.Vals rhs → lhs.Val

/-- The productions of a rule, one for each choice of its options. -/
def Rule.productions (r : Rule) : List Production :=
  r.parts.readings.map fun reading =>
    ⟨r.lhs, reading.rhs, fun place vals => r.action place (reading.value vals)⟩

end TraitMock
