import TraitMock.Decl.Item
import TraitMock.Report.Checked
import TraitMock.Walk.Edit

/-!
# Method/Normalize — arguments that can be handed on by name

A mock hands every argument on by its name, so each needs exactly one plain binding.  `mut` matters
only inside a body, which a mock does not have, and is dropped.  Other bindings are reported and
left alone.
-/

namespace TraitMock

/-- **Normalizing one parameter.** -/
def Param.normalize : Param → Checked (Edit Param)
  | .receiver .value true lifetime s => return .replace (.receiver .value false lifetime s)
  | .receiver _ _ _ _ => return .keep
  | .typed (.wild s) _ _ => do
    .report .unnamedArgument s
    return .keep
  | .typed (.ident ident byRef isMut sub s) ty span => do
    if byRef then .report .byRefArgument s
    if sub.isSome then .report .subpatternArgument s
    if byRef || sub.isSome || !isMut then return .keep
    else return .replace (.typed (.ident ident byRef false sub s) ty span)
  | .typed pat _ _ => do
    .report .patternArgument pat.span
    return .keep

/-- What becomes of each parameter of a list, from left to right. -/
def normalizeParams : List Param → Checked (List (Edit Param))
  | [] => return []
  | p :: rest => do return (← p.normalize) :: (← normalizeParams rest)

/-- The parameters after their edits. -/
def applyEdits (params : List Param) (edits : List (Edit Param)) : List Param :=
  params.zipWith (fun p e => e.apply p) edits

/-- **The parameters of a method, normalized.** -/
def Method.normalizedParams (m : Method) : Checked (List Param) := do
  return applyEdits m.params (← normalizeParams m.params)

end TraitMock
