import TraitMock.Walk.ImplTrait
import TraitMock.Walk.SelfType
import TraitMock.Walk.SuperPath

/-!
# Walk/TypePass — the passes over a type that may be absent

A method without a result has no return type, and the only pass that makes sense of this is the
erasure of `impl Trait`, which leaves it as it is.  `TypePass.Request` is a pass asked for by its
kind: it always wants a type, and it cannot replace `Self` without being told by what.
-/

namespace TraitMock

/-- **A pass over a type.** -/
inductive TypePass
  /-- Reports, and changes nothing. -/
  | plain
  | eraseImpl
  | selfType (actual : Ident) (interface : Option String)
  | superPath

namespace TypePass

/-- Carrying out a pass. -/
def run : TypePass → Ty → Checked (Edit Ty)
  | plain, ty => ty.walk .plain
  | eraseImpl, ty => pure ty.eraseImpl
  | selfType actual interface, ty => ty.substSelf actual interface
  | superPath, ty => ty.liftSuper

/-- **Carrying out a pass where there may be no type.** -/
def runOptional (pass : TypePass) : Option Ty → Checked (Edit (Option Ty))
  | some ty => do return (← pass.run ty).map some
  | none =>
    match pass with
    | eraseImpl => return .keep
    | _ => .fail (.unknownShape "NoneType")

/-- Searching for an unnamed type where there may be no type. -/
def scanOptional : Option Ty → Except Fault Bool
  | some ty => ty.hasImplTrait
  | none => .error (.unknownShape "NoneType")

/-- The kinds of passes that can be asked for. -/
inductive Kind
  | eraseImpl
  | selfType
  | superPath
  deriving DecidableEq, Repr

/-- **A pass asked for by its kind**, with what the kind may need. -/
structure Request where
  kind : Kind
  actual : Option Ident := none
  interface : Option String := none

/-- The pass of a request. -/
def Request.pass (r : Request) : Except Fault TypePass :=
  match r.kind, r.actual with
  | .eraseImpl, _ => .ok .eraseImpl
  | .selfType, some actual => .ok (.selfType actual r.interface)
  | .selfType, none => .error .absentActual
  | .superPath, _ => .ok .superPath

/-- **Carrying out a request.**  Where there is no type, the erasure has nothing to give back. -/
def Request.run (r : Request) (ty : Option Ty) : Checked (Edit (Option Ty)) := do
  let pass ← .ofExcept r.pass
  match ty, pass with
  | none, .eraseImpl => .fail .absentType
  | ty, pass => pass.runOptional ty

end TypePass

end TraitMock
