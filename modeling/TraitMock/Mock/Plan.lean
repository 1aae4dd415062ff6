import TraitMock.Decl.Reroot
import TraitMock.Method.Facts
import TraitMock.Mock.Names
import TraitMock.Walk.SelfType
import TraitMock.Walk.SuperPath

/-!
# Mock/Plan — planning the mocks of a declaration file

A plan says everything that has to be known to write a mock: its names, and for each method the
normalized signature, the types as they are written inside the mock, and the visibility of its
expectations.  A method's return type has `impl Trait` erased, `Self` replaced and its climbing
paths lifted, in this order; argument types are lifted.
-/

namespace TraitMock

/-- How many modules below the mock its expectations stand, unless it is said otherwise. -/
def defaultLevels : Int := 2

/-- **The plan of one method.** -/
structure MethodPlan where
  /-- The declaration with normalized parameters. -/
  sig : Method
  /-- The visibility of the expectations. -/
  vis : Visibility
  argTypes : List Ty
  output : Option Ty
  facts : MethodFacts

/-- **The plan of one mock.** -/
structure MockPlan where
  mock : Ident
  module : Ident
  /-- The name of the trait that the mock implements. -/
  interface : Option String
  generics : Generics
  methods : List MethodPlan
  span : Span

/-- **What a mock is made of**: the names that follow from an item, and the visibility of methods
that have none of their own. -/
structure MockHead where
  struct : Ident
  module : Ident
  interface : Option String
  defaultVis : Visibility

/-- The head of the mock of a trait. -/
def TraitDecl.mockHead (d : TraitDecl) : MockHead :=
  ⟨d.ident, moduleIdent d.ident none, some d.ident.name, d.vis⟩

/-- The head of the mock of a type that is implemented; only a plain path names one. -/
def ImplDecl.mockHead? (d : ImplDecl) : Option MockHead :=
  match d.selfTy with
  | .path path _ => do
    let struct := (← path.segments.getLast?).ident
    match d.traitPath with
    | none => return ⟨struct, moduleIdent struct none, none, .inherited⟩
    | some traitPath =>
      let interface := (← traitPath.segments.getLast?).ident
      return ⟨struct, moduleIdent struct (some interface), some interface.name, .inherited⟩
  | _ => none

/-- The head of the mock of an item. -/
def Item.mockHead? : Item → Option MockHead
  | .traitDecl d => some d.mockHead
  | .implDecl d => d.mockHead?

/-- The type of an argument as it is written inside the mock.  One with an unnamed type in it would
need a type parameter of its own; it is reported and left as it is. -/
def liftArgType (ty : Ty) : Checked Ty := do
  if ← .ofExcept ty.hasImplTrait then
    .report .implTraitArgument ty.span
    return ty
  else return (← ty.liftSuper).apply ty

/-- The types of arguments as they are written inside the mock. -/
def liftArgTypes : List Ty → Checked (List Ty)
  | [] => return []
  | ty :: rest => do return (← liftArgType ty) :: (← liftArgTypes rest)

/-- The result of a method as it is written inside the mock. -/
def lowerOutput (mock : Ident) (interface : Option String) : Option Ty → Checked (Option Ty)
  | none => return none
  | some ty => do
    let ty := (← ty.substSelf mock interface).apply ty
    return some ((← ty.liftSuper).apply ty)

/-- **Planning one method.** -/
def Method.plan (m : Method) (head : MockHead) (generics : Generics) (levels : Int) :
    Checked MethodPlan := do
  let facts ← m.facts (some generics)
  let output ← lowerOutput (mockIdent head.struct) head.interface facts.output
  let argTypes ← liftArgTypes facts.argTypes
  let vis := if m.vis.isInherited then head.defaultVis else m.vis
  let planned ← .ofExcept (vis.reroot levels)
  return {
    sig := { m with params := facts.params }, vis := planned.apply vis, argTypes, output, facts }

/-- Planning methods one after the other. -/
def planMethods (head : MockHead) (generics : Generics) (levels : Int) :
    List Method → Checked (List MethodPlan)
  | [] => return []
  | m :: rest => do
    return (← m.plan head generics levels) :: (← planMethods head generics levels rest)

/-- **Planning the mock of an item.**  An implementation for something that is no plain path has no
name to derive the mock's name from; it is reported and gets no plan. -/
def Item.plan (item : Item) (levels : Int) : Checked (Option MockPlan) :=
  match item.mockHead? with
  | none => do
    .report .unnamedTarget item.targetSpan
    return none
  | some head => do
    let methods ← planMethods head item.generics levels item.methods
    return some {
      mock := mockIdent head.struct, module := head.module, interface := head.interface
      generics := item.generics, methods, span := item.span }

/-- Planning items one after the other. -/
def planItems (levels : Int) : List Item → Checked (List MockPlan)
  | [] => return []
  | item :: rest => do return (← item.plan levels).toList ++ (← planItems levels rest)

/-- **Planning every item of a declaration file.** -/
def DeclFile.plan (decls : DeclFile) (levels : Int) : Checked (List MockPlan) :=
  planItems levels decls.items

end TraitMock
