import TraitMock.Decl.Basic
import TraitMock.Report.Diagnostic
import TraitMock.Walk.Edit

/-!
# Walk/ImplTrait — unnamed types

A returned `impl Trait` is erased to a boxed trait object, which has a name and can be stored
(`Ty.eraseImpl`).  `Ty.hasImplTrait` finds unnamed types anywhere a walk looks, and inside function
pointers too; it reports nothing.
-/

namespace TraitMock

/-- **Erasing an unnamed return type**: `impl A + B` becomes `Box<dyn A + B>`, everything at the
place of the type.  Only the type itself is looked at, not its parts. -/
def Ty.eraseImpl : Ty → Edit Ty
  | .implTrait bounds s =>
    let object : GenericArg := .type (.traitObject bounds s)
    .replace (.path ⟨[⟨⟨"Box", s⟩, .angle [object]⟩], false⟩ s)
  | _ => .keep

/-- Whether one of two searches finds something; both are made, from left to right. -/
def eitherFound (a b : Except Fault Bool) : Except Fault Bool := do
  let left ← a
  let right ← b
  return left || right

mutual

/-- **Whether a type has an unnamed type in it.**  A node of no known shape ends the search. -/
def Ty.hasImplTrait : Ty → Except Fault Bool
  | .slice elem _ => elem.hasImplTrait
  | .array elem _ _ => elem.hasImplTrait
  | .pointer elem _ _ => elem.hasImplTrait
  | .reference elem _ _ _ => elem.hasImplTrait
  | .tuple elems _ => anyImplTrait elems
  | .paren elem _ => elem.hasImplTrait
  | .group elem _ => elem.hasImplTrait
  | .function inputs output _ => eitherFound (anyImplTrait inputs) (outputHasImplTrait output)
  | .traitObject bounds _ => anyBoundHasImplTrait bounds
  | .implTrait _ _ => .ok true
  | .infer _ => .ok false
  | .never _ => .ok false
  | .macroCall _ _ => .ok false
  | .verbatim _ _ => .ok false
  | .path path _ => path.hasImplTrait
  | .qualified _ _ path _ => path.hasImplTrait
  | .unknown kind => .error (.unknownShape kind)

/-- Whether one of some types has an unnamed type in it. -/
def anyImplTrait : List Ty → Except Fault Bool
  | [] => .ok false
  | ty :: rest => eitherFound ty.hasImplTrait (anyImplTrait rest)

/-- Whether a result has an unnamed type in it. -/
def outputHasImplTrait : Option Ty → Except Fault Bool
  | none => .ok false
  | some ty => ty.hasImplTrait

/-- Whether a path has an unnamed type in it. -/
def Path.hasImplTrait : Path → Except Fault Bool
  | ⟨segments, _⟩ => anySegmentHasImplTrait segments

/-- Whether one of some segments has an unnamed type in it. -/
def anySegmentHasImplTrait : List Segment → Except Fault Bool
  | [] => .ok false
  | segment :: rest => eitherFound segment.hasImplTrait (anySegmentHasImplTrait rest)

/-- Whether a segment has an unnamed type in it. -/
def Segment.hasImplTrait : Segment → Except Fault Bool
  | ⟨_, args⟩ => args.hasImplTrait

/-- Whether what is applied to a segment has an unnamed type in it. -/
def SegmentArgs.hasImplTrait : SegmentArgs → Except Fault Bool
  | .none => .ok false
  | .angle args => anyArgHasImplTrait args
  | .call inputs output => eitherFound (anyImplTrait inputs) (outputHasImplTrait output)

/-- Whether one of some generic arguments has an unnamed type in it. -/
def anyArgHasImplTrait : List GenericArg → Except Fault Bool
  | [] => .ok false
  | arg :: rest => eitherFound arg.hasImplTrait (anyArgHasImplTrait rest)

/-- Whether a generic argument has an unnamed type in it. -/
def GenericArg.hasImplTrait : GenericArg → Except Fault Bool
  | .type ty => ty.hasImplTrait
  | .lifetime _ => .ok false
  | .binding _ ty => ty.hasImplTrait
  | .const _ => .ok false

/-- Whether a bound has an unnamed type in it. -/
def Bound.hasImplTrait : Bound → Except Fault Bool
  | .trait path _ => path.hasImplTrait
  | .outlives _ => .ok false

/-- Whether one of some bounds has an unnamed type in it. -/
def anyBoundHasImplTrait : List Bound → Except Fault Bool
  | [] => .ok false
  | bound :: rest => eitherFound bound.hasImplTrait (anyBoundHasImplTrait rest)

end

end TraitMock
