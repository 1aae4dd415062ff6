import TraitMock.Decl.Item
import TraitMock.Text.Blank
import TraitMock.Text.Joined

/-!
# Decl/Render — the written form of declarations

Every tree has one written form: one blank behind a comma, `dyn` before every trait object, no comma
behind the last member of a list, and no brackets around an empty list of generic arguments.  A node
of no known shape is written as a note in angle brackets.
-/

namespace TraitMock

/-- A lifetime with its quote. -/
def renderLifetime (name : String) : String := "'" ++ name

/-- Lifetimes as bounds. -/
def renderLifetimes (names : List String) : String := Text.joined " + " (names.map renderLifetime)

/-- The reference mark with its lifetime. -/
def renderAmp : Option String → String
  | none => "&"
  | some lifetime => "&" ++ renderLifetime lifetime ++ " "

/-- How many of `length` segments stand before a position; a negative position counts from the
end. -/
def cutIndex (position : Int) (length : Nat) : Nat :=
  if position < 0 then length - position.natAbs else position.toNat

/-- A call signature, with its result if it has one. -/
def callText (inputs : List String) (output : Option String) : String :=
  "(" ++ Text.joined ", " inputs ++ ")" ++
    match output with
    | none => ""
    | some output => " -> " ++ output

/-- A tuple; one element alone keeps its comma. -/
def tupleText : List String → String
  | [elem] => "(" ++ elem ++ ",)"
  | elems => "(" ++ Text.joined ", " elems ++ ")"

/-- A qualified path from the written forms of its type and its segments. -/
def qualifiedText (self : String) (position : Int) (segments : List String) : String :=
  let cut := cutIndex position segments.length
  let rest := Text.joined "::" (segments.drop cut)
  if position = 0 then "<" ++ self ++ ">::" ++ rest
  else "<" ++ self ++ " as " ++ Text.joined "::" (segments.take cut) ++ ">::" ++ rest

/-! ## Types and paths -/

mutual

/-- **A type as source text.** -/
def Ty.render : Ty → String
  | .slice elem _ => "[" ++ elem.render ++ "]"
  | .array elem length _ => "[" ++ elem.render ++ "; " ++ length ++ "]"
  | .pointer elem isMut _ => (if isMut then "*mut " else "*const ") ++ elem.render
  | .reference elem lifetime isMut _ =>
    renderAmp lifetime ++ (if isMut then "mut " else "") ++ elem.render
  | .tuple elems _ => tupleText (renderTypes elems)
  | .paren elem _ => "(" ++ elem.render ++ ")"
  | .group elem _ => elem.render
  | .function inputs output _ => "fn" ++ callText (renderTypes inputs) (renderOutput output)
  | .traitObject bounds _ => "dyn " ++ Text.joined " + " (renderBoundList bounds)
  | .implTrait bounds _ => "impl " ++ Text.joined " + " (renderBoundList bounds)
  | .infer _ => "_"
  | .never _ => "!"
  | .macroCall text _ => text
  | .verbatim text _ => text
  | .path path _ => path.render
  | .qualified self position ⟨segments, _⟩ _ =>
    qualifiedText self.render position (renderSegments segments)
  | .unknown _ => "<invalid type>"

/-- The written forms of types. -/
def renderTypes : List Ty → List String
  | [] => []
  | ty :: rest => ty.render :: renderTypes rest

/-- The written form of a result type. -/
def renderOutput : Option Ty → Option String
  | none => none
  | some ty => some ty.render

/-- **A path as source text.** -/
def Path.render : Path → String
  | ⟨segments, leadingColon⟩ =>
    (if leadingColon then "::" else "") ++ Text.joined "::" (renderSegments segments)

/-- The written forms of segments. -/
def renderSegments : List Segment → List String
  | [] => []
  | segment :: rest => segment.render :: renderSegments rest

/-- A path segment as source text. -/
def Segment.render : Segment → String
  | ⟨ident, args⟩ => ident.name ++ args.render

/-- What is applied to a segment, as source text. -/
def SegmentArgs.render : SegmentArgs → String
  | .none => ""
  | .angle [] => ""
  | .angle (arg :: rest) => "<" ++ Text.joined ", " (arg.render :: renderGenericArgs rest) ++ ">"
  | .call inputs output => callText (renderTypes inputs) (renderOutput output)

/-- The written forms of generic arguments. -/
def renderGenericArgs : List GenericArg → List String
  | [] => []
  | arg :: rest => arg.render :: renderGenericArgs rest

/-- A generic argument as source text. -/
def GenericArg.render : GenericArg → String
  | .type ty => ty.render
  | .lifetime name => renderLifetime name
  | .binding ident ty => ident.name ++ " = " ++ ty.render
  | .const text => text

/-- **A bound as source text.** -/
def Bound.render : Bound → String
  | .trait path relaxed => (if relaxed then "?" else "") ++ path.render
  | .outlives lifetime => renderLifetime lifetime

/-- The written forms of bounds. -/
def renderBoundList : List Bound → List String
  | [] => []
  | bound :: rest => bound.render :: renderBoundList rest

end

/-- Bounds as source text. -/
def renderBounds (bounds : List Bound) : String := Text.joined " + " (renderBoundList bounds)

theorem renderTypes_eq_map : ∀ types : List Ty, renderTypes types = types.map Ty.render
  | [] => by simp [renderTypes]
  | ty :: rest => by simp [renderTypes, renderTypes_eq_map rest]

theorem renderSegments_eq_map : ∀ segments : List Segment,
    renderSegments segments = segments.map Segment.render
  | [] => by simp [renderSegments]
  | segment :: rest => by simp [renderSegments, renderSegments_eq_map rest]

theorem renderGenericArgs_eq_map : ∀ args : List GenericArg,
    renderGenericArgs args = args.map GenericArg.render
  | [] => by simp [renderGenericArgs]
  | arg :: rest => by simp [renderGenericArgs, renderGenericArgs_eq_map rest]

theorem renderBoundList_eq_map : ∀ bounds : List Bound,
    renderBoundList bounds = bounds.map Bound.render
  | [] => by simp [renderBoundList]
  | bound :: rest => by simp [renderBoundList, renderBoundList_eq_map rest]

theorem renderOutput_eq_map (output : Option Ty) : renderOutput output = output.map Ty.render := by
  cases output <;> simp [renderOutput]

/-! ## Generics and visibilities -/

/-- A declared parameter as source text. -/
def GenericParam.render : GenericParam → String
  | .type ident bounds default =>
    ident.name ++ (if bounds.isEmpty then "" else ": " ++ renderBounds bounds) ++
      match default with
      | none => ""
      | some ty => " = " ++ ty.render
  | .lifetime ident bounds =>
    renderLifetime ident.name ++ (if bounds.isEmpty then "" else ": " ++ renderLifetimes bounds)
  | .const ident ty => "const " ++ ident.name ++ ": " ++ ty.render

/-- **The parameter list of a declaration**, without its where clause; nothing if it is empty. -/
def Generics.render (g : Generics) : String :=
  if !g.hasBrackets || g.params.isEmpty then ""
  else "<" ++ Text.joined ", " (g.params.map GenericParam.render) ++ ">"

/-- A text without the blanks at its end. -/
def withoutTrailingBlanks (s : String) : String := String.ofList (Text.trimRight s.toList)

/-- A condition as source text. -/
def Predicate.render : Predicate → String
  | .bounded ty bounds => withoutTrailingBlanks (ty.render ++ ": " ++ renderBounds bounds)
  | .outlives lifetime bounds =>
    withoutTrailingBlanks (renderLifetime lifetime ++ ": " ++ renderLifetimes bounds)
  | .equal lhs rhs => lhs.render ++ " = " ++ rhs.render

/-- **The where clause of a declaration**; nothing if it has no predicate. -/
def Generics.renderWhere (g : Generics) : String :=
  match g.whereClause with
  | none | some [] => ""
  | some predicates => "where " ++ Text.joined ", " (predicates.map Predicate.render)

/-- **A visibility as source text**; private is nothing. -/
def Visibility.render : Visibility → String
  | .inherited | .unknown _ => ""
  | .pub => "pub"
  | .crate => "crate"
  | .restricted path hasIn => (if hasIn then "pub(in " else "pub(") ++ path.render ++ ")"

/-! ## Methods -/

mutual

/-- **A pattern as source text.** -/
def Pat.render : Pat → String
  | .ident ident byRef isMut sub _ =>
    (if byRef then "ref " else "") ++ (if isMut then "mut " else "") ++ ident.name ++ renderSub sub
  | .wild _ => "_"
  | .tuple elems _ => "(" ++ Text.joined ", " (renderPats elems) ++ ")"
  | .unknown _ => "<invalid pattern>"

/-- The pattern behind a binding. -/
def renderSub : Option Pat → String
  | none => ""
  | some pat => " @ " ++ pat.render

/-- The written forms of patterns. -/
def renderPats : List Pat → List String
  | [] => []
  | pat :: rest => pat.render :: renderPats rest

end

/-- **A parameter as source text.** -/
def Param.render : Param → String
  | .receiver .value isMut _ _ => if isMut then "mut self" else "self"
  | .receiver .ref _ lifetime _ => renderAmp lifetime ++ "self"
  | .receiver .refMut _ lifetime _ => renderAmp lifetime ++ "mut self"
  | .typed pat ty _ => pat.render ++ ": " ++ ty.render

/-- An expression as source text. -/
def Expr.render : Expr → String
  | .name ident _ => ident.name
  | .ref expr isMut _ => (if isMut then "&mut " else "&") ++ expr.render
  | .unknown _ => "<invalid expr>"

/-- **A method as source text**, without a mark at its end.  `output`, if given, is written in the
place of the declared result. -/
def Method.renderWith (output : Option Ty) (m : Method) : String :=
  let vis := m.vis.render
  let clause := m.generics.renderWhere
  (if vis.isEmpty then "fn " else vis ++ " fn ") ++ m.ident.name ++ m.generics.render ++
    callText (m.params.map Param.render) ((output <|> m.output).map Ty.render) ++
    (if clause.isEmpty then "" else " " ++ clause)

/-- A method as source text, as it is declared. -/
def Method.render (m : Method) : String := m.renderWith none

end TraitMock
