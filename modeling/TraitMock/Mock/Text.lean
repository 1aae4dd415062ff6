import TraitMock.Decl.Render
import TraitMock.Mock.Plan
import TraitMock.Text.Json

/-!
# Mock/Text — plans and diagnostics as they are shown

A plan is shown as a JSON object or as a few lines of text; both hold the same written forms.
-/

namespace TraitMock

/-- The written forms of a method's plan. -/
structure MethodPlan.Shown where
  name : String
  signature : String
  vis : String
  isStatic : Bool
  isGeneric : Bool
  call : String
  expectation : String
  expectations : String
  expectObj : String
  altargs : List String
  matchexprs : List String
  matchTypes : List String
  argTypes : List String
  output : Option String

namespace MethodPlan

/-- **The written forms of a method's plan.**  The signature shows the planned result. -/
def shown (p : MethodPlan) : Shown :=
  { name := p.sig.ident.name
    signature := p.sig.renderWith p.output
    vis := p.vis.render
    isStatic := p.facts.isStatic
    isGeneric := p.facts.isGeneric
    call := p.facts.call.name
    expectation := p.facts.expectation.render
    expectations := p.facts.expectations.render
    expectObj := p.facts.expectObj.render
    altargs := p.facts.standIns.map (·.arg.render)
    matchexprs := p.facts.standIns.map (·.expr.render)
    matchTypes := p.facts.standIns.map (·.ty.render)
    argTypes := p.argTypes.map Ty.render
    output := p.output.map Ty.render }

/-- A method's plan as JSON. -/
def toJson (p : MethodPlan) : Json :=
  let s := p.shown
  .object [
    ("name", .str s.name), ("signature", .str s.signature), ("vis", .str s.vis),
    ("is_static", .bool s.isStatic), ("is_generic", .bool s.isGeneric), ("call", .str s.call),
    ("expectation", .str s.expectation), ("expectations", .str s.expectations),
    ("expect_obj", .str s.expectObj), ("altargs", .strs s.altargs),
    ("matchexprs", .strs s.matchexprs), ("match_types", .strs s.matchTypes),
    ("arg_types", .strs s.argTypes), ("output", .ofOption s.output)]

/-- A truth value as a word. -/
def truthWord (b : Bool) : String := if b then "True" else "False"

/-- The lines that show a method's plan; those about arguments are left out if there are none. -/
def lines (p : MethodPlan) : List String :=
  let s := p.shown
  ["  " ++ s.signature,
   "    vis: " ++ s.vis,
   "    call: " ++ s.call ++ " static: " ++ truthWord s.isStatic ++
     " generic: " ++ truthWord s.isGeneric,
   "    expectation: " ++ s.expectation,
   "    expect_obj: " ++ s.expectObj] ++
  if s.altargs.isEmpty then []
  else
    ["    altargs: " ++ Text.joined ", " s.altargs,
     "    matchexprs: " ++ Text.joined ", " s.matchexprs]

end MethodPlan

namespace MockPlan

/-- **A plan as JSON.** -/
def toJson (p : MockPlan) : Json :=
  .object [
    ("mock", .str p.mock.name), ("module", .str p.module.name),
    ("interface", .ofOption p.interface), ("generics", .str p.generics.render),
    ("where", .str p.generics.renderWhere), ("methods", .list (p.methods.map MethodPlan.toJson))]

/-- The first line of a plan. -/
def header (p : MockPlan) : String :=
  p.mock.name ++ p.generics.render ++ " (module " ++ p.module.name ++ ")" ++
    match p.interface with
    | none => ""
    | some interface => " implements " ++ interface

/-- **The lines that show a plan.** -/
def lines (p : MockPlan) : List String := p.header :: p.methods.flatMap MethodPlan.lines

end MockPlan

namespace Diagnostic

/-- The phase of a diagnostic, where an empty one counts as none. -/
def phaseOr (d : Diagnostic) (default : String) : String :=
  match d.phase with
  | none => default
  | some phase => if phase.isEmpty then default else phase

/-- **A diagnostic as JSON.**  One without a file gets the name of its source. -/
def toJson (d : Diagnostic) (source : String) : Json :=
  .object [
    ("phase", .str (d.phaseOr Phase.driver.name)), ("message", .str d.message),
    ("severity", .str d.severity), ("file", .str (d.span.file.getD source)),
    ("line", .ofOptionInt d.span.line), ("column", .ofOptionInt d.span.column),
    ("notes", .strs d.notes)]

/-- **The line that shows a diagnostic**: its place, its severity, its message. -/
def line (d : Diagnostic) (source : String) : String :=
  let span := d.span.fillFile (some source)
  let place := if span.isKnown then span.format else span.file.getD source ++ ":?:?"
  place ++ ": " ++ d.severity ++ ": " ++ d.message

end Diagnostic

end TraitMock
