import TraitMock.Decl.Basic

/-!
# Proofs/Walk/Parts — everything inside a type

`Ty.parts` lists the types and the paths inside a type, itself included, in the order in which they
are written: also those that a walk does not come to, such as the arguments of a function pointer or
the type of a qualified path.
-/

namespace TraitMock

/-- **Something inside a type.** -/
inductive Part
  | type (ty : Ty)
  | path (path : Path)

/-- The path of a part that is one. -/
def Part.path? : Part → Option Path
  | .type _ => none
  | .path p => some p

/-- The names along a path. -/
def Path.names (path : Path) : List String := path.segments.map (·.ident.name)

/-- **Whether a type is of a form that a mock can be written for**, its parts not looked at. -/
def Ty.isSupported : Ty → Bool
  | .function _ _ _ | .implTrait _ _ | .macroCall _ _ | .verbatim _ _ | .qualified _ _ _ _
  | .unknown _ => false
  | _ => true

mutual

/-- **The parts of a type.** -/
def Ty.parts : Ty → List Part
  | .slice elem s => .type (.slice elem s) :: elem.parts
  | .array elem length s => .type (.array elem length s) :: elem.parts
  | .pointer elem isMut s => .type (.pointer elem isMut s) :: elem.parts
  | .reference elem lifetime isMut s => .type (.reference elem lifetime isMut s) :: elem.parts
  | .tuple elems s => .type (.tuple elems s) :: typesParts elems
  | .paren elem s => .type (.paren elem s) :: elem.parts
  | .group elem s => .type (.group elem s) :: elem.parts
  | .function inputs output s =>
    .type (.function inputs output s) :: (typesParts inputs ++ outputParts output)
  | .traitObject bounds s => .type (.traitObject bounds s) :: boundsParts bounds
  | .implTrait bounds s => .type (.implTrait bounds s) :: boundsParts bounds
  | .infer s => [.type (.infer s)]
  | .never s => [.type (.never s)]
  | .macroCall text s => [.type (.macroCall text s)]
  | .verbatim text s => [.type (.verbatim text s)]
  | .path path s => .type (.path path s) :: path.parts
  | .qualified self position path s =>
    .type (.qualified self position path s) :: (self.parts ++ path.parts)
  | .unknown kind => [.type (.unknown kind)]

/-- The parts of types. -/
def typesParts : List Ty → List Part
  | [] => []
  | ty :: rest => ty.parts ++ typesParts rest

/-- The parts of a result. -/
def outputParts : Option Ty → List Part
  | none => []
  | some ty => ty.parts

/-- **The parts of a path.** -/
def Path.parts : Path → List Part
  | ⟨segments, leadingColon⟩ => .path ⟨segments, leadingColon⟩ :: segmentsParts segments

/-- The parts of segments. -/
def segmentsParts : List Segment → List Part
  | [] => []
  | segment :: rest => segment.parts ++ segmentsParts rest

/-- The parts of a segment. -/
def Segment.parts : Segment → List Part
  | ⟨_, args⟩ => args.parts

/-- The parts of what is applied to a segment. -/
def SegmentArgs.parts : SegmentArgs → List Part
  | .none => []
  | .angle args => argsParts args
  | .call inputs output => typesParts inputs ++ outputParts output

/-- The parts of generic arguments. -/
def argsParts : List GenericArg → List Part
  | [] => []
  | arg :: rest => arg.parts ++ argsParts rest

/-- The parts of a generic argument. -/
def GenericArg.parts : GenericArg → List Part
  | .type ty => ty.parts
  | .lifetime _ => []
  | .binding _ ty => ty.parts
  | .const _ => []

/-- The parts of a bound. -/
def Bound.parts : Bound → List Part
  | .trait path _ => path.parts
  | .outlives _ => []

/-- The parts of bounds. -/
def boundsParts : List Bound → List Part
  | [] => []
  | bound :: rest => bound.parts ++ boundsParts rest

end

theorem segmentsParts_append (front rest : List Segment) :
    segmentsParts (front ++ rest) = segmentsParts front ++ segmentsParts rest := by
  induction front with
  | nil => rfl
  | cons segment front ih => simp [segmentsParts, ih]

/-- Segments to which nothing is applied have no parts. -/
theorem segmentsParts_of_bare {segments : List Segment} (h : ∀ s ∈ segments, s.args = .none) :
    segmentsParts segments = [] := by
  induction segments with
  | nil => rfl
  | cons segment segments ih =>
    obtain ⟨ident, args⟩ := segment
    obtain rfl : args = .none := h _ List.mem_cons_self
    rw [segmentsParts, Segment.parts, SegmentArgs.parts, List.nil_append]
    exact ih fun s hs => h s (List.mem_cons_of_mem _ hs)

end TraitMock
