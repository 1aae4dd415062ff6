import TraitMock.Span
import TraitMock.Syntax.Message

/-!
# Report/Diagnostic — problems with a declaration, and how they are reported

A `Problem` is something about a declaration that cannot be mocked; it has a phase and a wording.  A
`Diagnostic` is a problem at its place, ready to be shown.  `Fault`s are different: they end a
computation, because a shape is not supported at all or because the caller asked for the impossible.
-/

namespace TraitMock

/-- The stages that report problems. -/
inductive Phase
  | parser | normalize | walk | classify | driver
  deriving DecidableEq, Repr

/-- The name of a phase. -/
def Phase.name : Phase → String
  | .parser => "parser"
  | .normalize => "normalize"
  | .walk => "rewrite"
  | .classify => "classify"
  | .driver => "driver"

/-- **What can be wrong with a declaration.** -/
inductive Problem
  /-- The text is no declaration. -/
  | syntactic (error : SyntaxError)
  /-- An argument without a name. -/
  | unnamedArgument
  /-- An argument bound by `ref`. -/
  | byRefArgument
  /-- An argument bound by `x @ pattern`. -/
  | subpatternArgument
  /-- An argument taken apart by its pattern. -/
  | patternArgument
  /-- A reference returned under a lifetime of its own. -/
  | namedReturnLifetime
  /-- A path `<T as Trait>::X`. -/
  | qualifiedPath
  /-- A type that cannot be looked into. -/
  | opaqueType (text : String)
  /-- A return type that cannot be looked into. -/
  | opaqueReturn (text : String)
  /-- A trait object of several bounds that speaks of `Self`. -/
  | selfAmongBounds
  /-- `impl Trait` in an argument. -/
  | implTraitArgument
  /-- An implementation for a type that is no plain path. -/
  | unnamedTarget
  /-- A declaration file that does not exist. -/
  | missingSource (path : String)
  deriving DecidableEq, Repr

namespace Problem

/-- The stage that finds a problem. -/
def phase : Problem → Phase
  | .syntactic _ => .parser
  | .unnamedArgument | .byRefArgument | .subpatternArgument | .patternArgument => .normalize
  | .namedReturnLifetime => .classify
  | .qualifiedPath | .opaqueType _ | .opaqueReturn _ | .selfAmongBounds => .walk
  | .implTraitArgument | .unnamedTarget | .missingSource _ => .driver

/-- **The wording of a problem.** -/
def message : Problem → String
  | .syntactic error => error.message
  | .unnamedArgument => "mocked methods must have named arguments"
  | .byRefArgument => "by-reference argument bindings are not supported"
  | .subpatternArgument => "subpattern bindings are not supported"
  | .patternArgument => "unsupported argument pattern"
  | .namedReturnLifetime => "non-'static non-'self lifetimes are not yet supported"
  | .qualifiedPath => "qualified-self paths are not supported"
  | .opaqueType text => "type `" ++ text ++ "` is not supported in this position"
  | .opaqueReturn text => "type `" ++ text ++ "` is not supported as a return type"
  | .selfAmongBounds => "trait objects with multiple bounds cannot refer to `Self`"
  | .implTraitArgument => "`impl Trait` arguments are not supported"
  | .unnamedTarget => "mocked impl blocks must name a struct type"
  | .missingSource path => "source not found: " ++ path

end Problem

/-- **A problem as it is shown.** -/
structure Diagnostic where
  message : String
  code : Option String := none
  phase : Option String := none
  severity : String := "error"
  span : Span := {}
  notes : List String := []
  deriving DecidableEq, Repr

namespace Diagnostic

/-- A problem at its place. -/
def ofProblem (p : Problem) (span : Span) : Diagnostic :=
  { message := p.message, phase := some p.phase.name, span }

/-- Whether a diagnostic is an error, and not a lesser remark. -/
def isError (d : Diagnostic) : Bool := d.severity == "error"

/-- Whether there is an error among diagnostics. -/
def anyError (ds : List Diagnostic) : Bool := ds.any isError

@[simp] theorem isError_ofProblem (p : Problem) (span : Span) : (ofProblem p span).isError := by
  simp [isError, ofProblem]

end Diagnostic

/-- **Why a computation ends without a value.** -/
inductive Fault
  /-- A problem was found where nobody collects problems. -/
  | uncollected (message : String)
  /-- A function pointer in a type that is walked over. -/
  | functionPointer
  /-- `impl Trait` in a type from which it should have been erased. -/
  | implTrait
  /-- A node of no known shape, by what it calls itself. -/
  | unknownShape (kind : String)
  /-- No type where a type is needed. -/
  | absentType
  /-- `Self` is to be replaced, and nothing is given to replace it by. -/
  | absentActual
  /-- A number of module levels below one. -/
  | levelsBelowOne (levels : Int)
  deriving DecidableEq, Repr

/-- **The wording of a fault.** -/
def Fault.message : Fault → String
  | .uncollected message => message
  | .functionPointer => "function pointer types are not supported by mockgen rewrite passes yet"
  | .implTrait =>
    "impl Trait reached a rewrite pass; deimplify must run on the return type first (driver bug)"
  | .unknownShape kind => "No rewrite for type " ++ kind
  | .absentType => ""
  | .absentActual => "deselfify needs the mock type identifier (actual=...)"
  | .levelsBelowOne levels => "levels must be at least 1, got " ++ toString levels

end TraitMock
