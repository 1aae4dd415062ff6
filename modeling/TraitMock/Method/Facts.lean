import TraitMock.Decl.Merge
import TraitMock.Method.Normalize
import TraitMock.Walk.ImplTrait

/-!
# Method/Facts — what a mock has to know about a method

From the declaration of a method, and the generics of the item around it, follow the names of its
expectation types, how a call is dispatched, and how the arguments are handed to a matcher: each as
an expression that is exactly one reference deep, next to a stand-in argument of the type behind
that reference.
-/

namespace TraitMock

/-- How a call of a mocked method reaches its expectation. -/
inductive CallKind
  | call
  | callMut
  deriving DecidableEq, Repr

/-- The name of the entry point. -/
def CallKind.name : CallKind → String
  | .call => "call"
  | .callMut => "call_mut"

/-- **One argument as a matcher sees it.** -/
structure StandIn where
  /-- The argument under a name of its position, of the type behind the reference. -/
  arg : Param
  /-- The expression that hands the argument on by reference. -/
  expr : Expr
  /-- The type of that expression. -/
  ty : Ty

/-- **What follows from a declared method.** -/
structure MethodFacts where
  isStatic : Bool
  isGeneric : Bool
  /-- One expectation of the method. -/
  expectation : Ty
  /-- All expectations of the method. -/
  expectations : Ty
  /-- What the mock holds for the method. -/
  expectObj : Ty
  call : CallKind
  standIns : List StandIn
  /-- The declared types of the arguments, without the receiver. -/
  argTypes : List Ty
  /-- The normalized parameters. -/
  params : List Param
  /-- The result, `impl Trait` erased. -/
  output : Option Ty

namespace Param

/-- Whether a parameter is a receiver. -/
def isReceiver : Param → Bool
  | receiver _ _ _ _ => true
  | typed _ _ _ => false

/-- The declared type of an argument. -/
def ty? : Param → Option Ty
  | receiver _ _ _ _ => none
  | typed _ ty _ => some ty

/-- **How a matcher sees the argument at a position**; only a plain binding can be handed on.  A
reference is handed on as it is, and anything else by a reference to it. -/
def standIn? (position : Nat) : Param → Option StandIn
  | typed (.ident ident _ _ _ patSpan) ty span =>
    let arg (ty : Ty) : Param :=
      .typed (.ident ⟨"p" ++ toString position, span⟩ false false none span) ty span
    match ty with
    | .reference elem _ _ _ => some ⟨arg elem, .name ident patSpan, ty⟩
    | _ => some ⟨arg ty, .ref (.name ident patSpan) false span, .reference ty none false ty.span⟩
  | _ => none

end Param

/-- The arguments of a method as a matcher sees them, named by their positions among all
parameters from `position` on. -/
def standIns : (position : Nat) → List Param → List StandIn
  | _, [] => []
  | position, p :: rest => (p.standIn? position).toList ++ standIns (position + 1) rest

/-- The lifetimes under which a returned reference can be served: none, the longest one, and the
one that is left to be inferred. -/
def isServedLifetime : Option String → Bool
  | none => true
  | some name => name == "static" || name == "_"

/-- **How a call is dispatched**: by `call_mut` exactly if a mutable reference is returned. -/
def CallKind.ofOutput : Option Ty → Checked CallKind
  | some (.reference _ lifetime isMut s) => do
    if !isServedLifetime lifetime then .report .namedReturnLifetime s
    return if isMut then .callMut else .call
  | _ => return .call

/-- The path `method::Name<args>`, at the place of the method's name. -/
def expectationPath (method : Ident) (name : String) (args : List GenericArg) : Ty :=
  let applied : SegmentArgs := if args.isEmpty then .none else .angle args
  .path ⟨[⟨method, .none⟩, ⟨⟨name, method.span⟩, applied⟩], false⟩ method.span

/-- **The facts of a method** declared inside an item with the given generics, if there is one. -/
def Method.facts (m : Method) (generics : Option Generics) : Checked MethodFacts := do
  let params ← m.normalizedParams
  let merged := match generics with
    | some g => g.merge m.generics
    | none => m.generics
  let isGeneric := !m.generics.params.isEmpty
  let output := m.output.map fun ty => ty.eraseImpl.apply ty
  let dispatch ← CallKind.ofOutput output
  let expectations :=
    expectationPath m.ident (if isGeneric then "GenericExpectations" else "Expectations") []
  return {
    isStatic := !params.any Param.isReceiver
    isGeneric
    expectation := expectationPath m.ident "Expectation" merged.typeArgs
    expectations
    expectObj :=
      if isGeneric then expectations else expectationPath m.ident "Expectations" merged.typeArgs
    call := dispatch
    standIns := standIns 0 params
    argTypes := params.filterMap Param.ty?
    params
    output }

end TraitMock
