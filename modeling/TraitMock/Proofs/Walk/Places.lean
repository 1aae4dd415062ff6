import TraitMock.Proofs.Report.Laws
import TraitMock.Proofs.Walk.Parts
import TraitMock.Walk.Basic

/-!
# Proofs/Walk/Places — the places that a walk comes to, and what it makes of a type

A walk comes to the parts of a type in the order in which they are written.  It does not come to the
type of a qualified path, and of a trait object that gives way to a name only to what is applied to
the last segment of its bound.  `Ty.places` lists where it comes to, `Pass.inspect` is all that it
reports or fails on there, and `Ty.after` is the type that it makes.

The plain walk, in which nothing gives way, comes to everything outside the types of qualified
paths.
-/

namespace TraitMock

/-! ## Places -/

mutual

/-- **The places of a type** that a walk comes to.  Where a trait object gives way to a name, the
path of that name is a place too.  What is inside a function pointer or an unnamed type is listed,
but these end the walk. -/
def Ty.places (p : Pass) : Ty → List Part
  | .slice elem s => .type (.slice elem s) :: elem.places p
  | .array elem length s => .type (.array elem length s) :: elem.places p
  | .pointer elem isMut s => .type (.pointer elem isMut s) :: elem.places p
  | .reference elem lifetime isMut s => .type (.reference elem lifetime isMut s) :: elem.places p
  | .tuple elems s => .type (.tuple elems s) :: typesPlaces p elems
  | .paren elem s => .type (.paren elem s) :: elem.places p
  | .group elem s => .type (.group elem s) :: elem.places p
  | .function inputs output s =>
    .type (.function inputs output s) :: (typesPlaces p inputs ++ outputPlaces p output)
  | .traitObject bounds s => .type (.traitObject bounds s) ::
    match p.collapse bounds with
    | some name => solePlaces p name bounds
    | none => boundsPlaces p bounds
  | .implTrait bounds s => .type (.implTrait bounds s) :: boundsPlaces p bounds
  | .infer s => [.type (.infer s)]
  | .never s => [.type (.never s)]
  | .macroCall text s => [.type (.macroCall text s)]
  | .verbatim text s => [.type (.verbatim text s)]
  | .path path s => .type (.path path s) :: path.places p
  | .qualified self position path s => .type (.qualified self position path s) :: path.places p
  | .unknown kind => [.type (.unknown kind)]

/-- The places of types. -/
def typesPlaces (p : Pass) : List Ty → List Part
  | [] => []
  | ty :: rest => ty.places p ++ typesPlaces p rest

/-- The places of a result. -/
def outputPlaces (p : Pass) : Option Ty → List Part
  | none => []
  | some ty => ty.places p

/-- **The places of a path.** -/
def Path.places (p : Pass) : Path → List Part
  | ⟨segments, leadingColon⟩ => .path ⟨segments, leadingColon⟩ :: segmentsPlaces p segments

/-- The places of segments. -/
def segmentsPlaces (p : Pass) : List Segment → List Part
  | [] => []
  | segment :: rest => segment.places p ++ segmentsPlaces p rest

/-- The places of a segment. -/
def Segment.places (p : Pass) : Segment → List Part
  | ⟨_, args⟩ => args.places p

/-- The places of what is applied to a segment. -/
def SegmentArgs.places (p : Pass) : SegmentArgs → List Part
  | .none => []
  | .angle args => argsPlaces p args
  | .call inputs output => typesPlaces p inputs ++ outputPlaces p output

/-- The places of generic arguments. -/
def argsPlaces (p : Pass) : List GenericArg → List Part
  | [] => []
  | arg :: rest => arg.places p ++ argsPlaces p rest

/-- The places of a generic argument. -/
def GenericArg.places (p : Pass) : GenericArg → List Part
  | .type ty => ty.places p
  | .lifetime _ => []
  | .binding _ ty => ty.places p
  | .const _ => []

/-- The places of a bound. -/
def Bound.places (p : Pass) : Bound → List Part
  | .trait path _ => path.places p
  | .outlives _ => []

/-- The places of bounds. -/
def boundsPlaces (p : Pass) : List Bound → List Part
  | [] => []
  | bound :: rest => bound.places p ++ boundsPlaces p rest

/-- The places of a sole bound whose trait object gives way to a name. -/
def solePlaces (p : Pass) (name : String) : List Bound → List Part
  | [.trait ⟨segments, _⟩ _] => lastPlaces p name segments
  | _ => []

/-- The places of the last segment, which goes by the name that its trait object gives way to. -/
def lastPlaces (p : Pass) (name : String) : List Segment → List Part
  | [] => []
  | [⟨ident, args⟩] => .path ⟨[⟨⟨name, ident.span⟩, args⟩], false⟩ :: args.places p
  | _ :: segment :: rest => lastPlaces p name (segment :: rest)

end

/-! ## What is reported -/

/-- **Why a place ends every walk.** -/
def Part.fault? : Part → Option Fault
  | .type (.function _ _ _) => some .functionPointer
  | .type (.implTrait _ _) => some .implTrait
  | .type (.unknown kind) => some (.unknownShape kind)
  | _ => none

/-- **Places none of which ends a walk.** -/
def Walkable (places : List Part) : Prop := ∀ place ∈ places, place.fault? = none

@[simp] theorem walkable_nil : Walkable [] := nofun

@[simp] theorem walkable_cons {place : Part} {rest : List Part} :
    Walkable (place :: rest) ↔ place.fault? = none ∧ Walkable rest := List.forall_mem_cons

@[simp] theorem walkable_append {front rest : List Part} :
    Walkable (front ++ rest) ↔ Walkable front ∧ Walkable rest := List.forall_mem_append

namespace Pass

/-- **What a walk complains of** at a place. -/
def complaint? (p : Pass) : Part → Option Diagnostic
  | .type (.macroCall text s) | .type (.verbatim text s) => some (.ofProblem (p.unseen text) s)
  | .type (.qualified _ _ _ s) => some (.ofProblem .qualifiedPath s)
  | .type (.traitObject bounds s) =>
    match p.collapse bounds with
    | some _ => none
    | none => (p.objection bounds).map (.ofProblem · s)
  | _ => none

/-- **Inspecting a place**: it ends the walk, is reported, or is passed by. -/
def check (p : Pass) (place : Part) : Checked Unit :=
  match place.fault? with
  | some fault => .fail fault
  | none =>
    match p.complaint? place with
    | some complaint => .emit complaint
    | none => pure ()

/-- **Inspecting places** from left to right. -/
def inspect (p : Pass) : List Part → Checked Unit
  | [] => pure ()
  | place :: rest => do
    p.check place
    p.inspect rest

/-- All complaints at some places, in their order. -/
def complaints (p : Pass) (places : List Part) : List Diagnostic := places.filterMap p.complaint?

theorem inspect_append (p : Pass) (front rest : List Part) :
    p.inspect (front ++ rest) = p.inspect front >>= fun _ => p.inspect rest := by
  induction front with
  | nil => rfl
  | cons place front ih => rw [List.cons_append, inspect, inspect, ih, Checked.bind_assoc]

end Pass

/-! ## What a walk makes of a type -/

/-- **A path of new segments**, with what a pass puts in front of it. -/
def Path.led (p : Pass) (path : Path) : Path := ⟨p.lead path ++ path.segments, path.leadingColon⟩

/-- What an identifier is called after the walk. -/
def Ident.after (p : Pass) (ident : Ident) : Ident :=
  match p.rename ident.name with
  | some name => ⟨name, ident.span⟩
  | none => ident

mutual

/-- **What a walk makes of a type**, where nothing ends it. -/
def Ty.after (p : Pass) : Ty → Ty
  | .slice elem s => .slice (elem.after p) s
  | .array elem length s => .array (elem.after p) length s
  | .pointer elem isMut s => .pointer (elem.after p) isMut s
  | .reference elem lifetime isMut s => .reference (elem.after p) lifetime isMut s
  | .tuple elems s => .tuple (typesAfter p elems) s
  | .paren elem s => .paren (elem.after p) s
  | .group elem s => .group (elem.after p) s
  | .function inputs output s => .function inputs output s
  | .traitObject bounds s =>
    match p.collapse bounds with
    | some name =>
      match soleAfter p bounds with
      | some ⟨ident, args⟩ => .path ⟨[⟨⟨name, ident.span⟩, args⟩], false⟩ s
      | none => .traitObject bounds s
    | none => .traitObject (boundsAfter p bounds) s
  | .implTrait bounds s => .implTrait bounds s
  | .infer s => .infer s
  | .never s => .never s
  | .macroCall text s => .macroCall text s
  | .verbatim text s => .verbatim text s
  | .path path s => .path (path.after p) s
  | .qualified self position path s =>
    .qualified self (position + (path.after p).segments.length - path.segments.length)
      (path.after p) s
  | .unknown kind => .unknown kind

/-- What a walk makes of types. -/
def typesAfter (p : Pass) : List Ty → List Ty
  | [] => []
  | ty :: rest => ty.after p :: typesAfter p rest

/-- What a walk makes of a result. -/
def outputAfter (p : Pass) : Option Ty → Option Ty
  | none => none
  | some ty => some (ty.after p)

/-- **What a walk makes of a path.** -/
def Path.after (p : Pass) : Path → Path
  | ⟨segments, leadingColon⟩ => Path.led p ⟨segmentsAfter p segments, leadingColon⟩

/-- What a walk makes of segments. -/
def segmentsAfter (p : Pass) : List Segment → List Segment
  | [] => []
  | segment :: rest => segment.after p :: segmentsAfter p rest

/-- What a walk makes of a segment. -/
def Segment.after (p : Pass) : Segment → Segment
  | ⟨ident, args⟩ => ⟨ident.after p, args.after p⟩

/-- What a walk makes of what is applied to a segment. -/
def SegmentArgs.after (p : Pass) : SegmentArgs → SegmentArgs
  | .none => .none
  | .angle args => .angle (argsAfter p args)
  | .call inputs output => .call (typesAfter p inputs) (outputAfter p output)

/-- What a walk makes of generic arguments. -/
def argsAfter (p : Pass) : List GenericArg → List GenericArg
  | [] => []
  | arg :: rest => arg.after p :: argsAfter p rest

/-- What a walk makes of a generic argument. -/
def GenericArg.after (p : Pass) : GenericArg → GenericArg
  | .type ty => .type (ty.after p)
  | .lifetime name => .lifetime name
  | .binding ident ty => .binding ident (ty.after p)
  | .const text => .const text

/-- What a walk makes of a bound. -/
def Bound.after (p : Pass) : Bound → Bound
  | .trait path relaxed => .trait (path.after p) relaxed
  | .outlives lifetime => .outlives lifetime

/-- What a walk makes of bounds. -/
def boundsAfter (p : Pass) : List Bound → List Bound
  | [] => []
  | bound :: rest => bound.after p :: boundsAfter p rest

/-- What a walk makes of the last segment of a sole bound. -/
def soleAfter (p : Pass) : List Bound → Option Segment
  | [.trait ⟨segments, _⟩ _] => lastAfter p segments
  | _ => none

/-- What a walk makes of the last of some segments, which keeps its name. -/
def lastAfter (p : Pass) : List Segment → Option Segment
  | [] => none
  | [⟨ident, args⟩] => some ⟨ident, args.after p⟩
  | _ :: segment :: rest => lastAfter p (segment :: rest)

end

theorem typesAfter_eq_map (p : Pass) (tys : List Ty) : typesAfter p tys = tys.map (Ty.after p) := by
  induction tys with
  | nil => rfl
  | cons ty rest ih => rw [typesAfter, ih, List.map_cons]

theorem segmentsAfter_eq_map (p : Pass) (segments : List Segment) :
    segmentsAfter p segments = segments.map (Segment.after p) := by
  induction segments with
  | nil => rfl
  | cons segment rest ih => rw [segmentsAfter, ih, List.map_cons]

theorem length_segmentsAfter (p : Pass) (segments : List Segment) :
    (segmentsAfter p segments).length = segments.length := by
  rw [segmentsAfter_eq_map, List.length_map]

theorem argsAfter_eq_map (p : Pass) (args : List GenericArg) :
    argsAfter p args = args.map (GenericArg.after p) := by
  induction args with
  | nil => rfl
  | cons arg rest ih => rw [argsAfter, ih, List.map_cons]

theorem boundsAfter_eq_map (p : Pass) (bounds : List Bound) :
    boundsAfter p bounds = bounds.map (Bound.after p) := by
  induction bounds with
  | nil => rfl
  | cons bound rest ih => rw [boundsAfter, ih, List.map_cons]

/-- What a walk makes of a type stands in its place. -/
theorem Ty.span_after (p : Pass) (ty : Ty) : (ty.after p).span = ty.span := by
  cases ty with
  | traitObject bounds s =>
    rw [Ty.after]
    split
    · split <;> rfl
    · rfl
  | _ => rfl

/-- What a walk makes of a part. -/
def Part.after (p : Pass) : Part → Part
  | .type ty => .type (ty.after p)
  | .path old => .path (old.after p)

/-- **Whether a walk leaves a place as it is.** -/
def Pass.spares (p : Pass) : Part → Bool
  | .type (.traitObject bounds _) => (p.collapse bounds).isNone
  | .type _ => true
  | .path path => path.segments.all (fun s => (p.rename s.ident.name).isNone) &&
    (p.lead ⟨segmentsAfter p path.segments, path.leadingColon⟩).isEmpty

end TraitMock
